namespace FirstPass
namespace Decimal

/-!
Decimal notation.

Numbers are written with no leading zero and, below zero, with a minus sign.
Reading is more liberal than writing: any run of digits denotes a number, and
zeros in front of it add nothing.  What is written reads back as the same
number (`value_toDigits`).
-/

/-- The number that a run of decimal digits denotes, the most significant
digit coming first. -/
def value (digits : List Char) : Nat :=
  digits.foldl (fun total digit => 10 * total + (digit.toNat - '0'.toNat)) 0

theorem value_append_digit (digits : List Char) (digit : Char) :
    value (digits ++ [digit]) = 10 * value digits + (digit.toNat - '0'.toNat) := by
  simp [value, List.foldl_append]

theorem value_digitChar :
    ∀ number, number < 10 → (Nat.digitChar number).toNat - '0'.toNat = number := by
  decide

/-- Reading the digits of a number gives the number back. -/
theorem value_toDigits (number : Nat) : value (Nat.toDigits 10 number) = number := by
  induction number using Nat.strongRecOn with
  | ind number ih =>
      by_cases small : number < 10
      · rw [Nat.toDigits_of_lt_base small]
        simpa [value] using value_digitChar number small
      · have last := value_digitChar (number % 10) (by omega)
        rw [Nat.toDigits_of_base_le (by decide) (by omega), value_append_digit,
          ih (number / 10) (by omega), last]
        omega

/-- The decimal text of an integer. -/
def ofInt : Int → String
  | .ofNat magnitude => magnitude.repr
  | .negSucc below => "-" ++ (below + 1).repr

/-- At least two digits: a number below ten gets a zero in front. -/
def twoDigits (number : Nat) : String :=
  if number < 10 then "0" ++ number.repr else number.repr

end Decimal
end FirstPass
