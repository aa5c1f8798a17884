import FirstPass.Proofs.Reading

namespace FirstPass

/-!
Numbers and their decimal texts.

A numeral is never negative.  Conversely every address that is not negative is
written with digits alone, and what is written is a numeral for it.
-/

namespace Decimal

theorem isDigit_of_mem_repr {number : Nat} {c : Char} (member : c ∈ number.repr.toList) :
    c.isDigit = true := by
  rw [Nat.toList_repr] at member
  exact Nat.isDigit_of_mem_toDigits (by decide) (by decide) member

theorem value_repr (number : Nat) : value number.repr.toList = number := by
  rw [Nat.toList_repr, value_toDigits]

theorem ofInt_of_nonneg {number : Int} (nonneg : 0 ≤ number) :
    ofInt number = number.toNat.repr := by
  cases number with
  | ofNat magnitude => rfl
  | negSucc below => exact absurd nonneg (Int.negSucc_not_nonneg below).mp

end Decimal

theorem Token.isNumber_repr (number : Nat) : (Token.mk number.repr).isNumber = true := by
  unfold isNumber
  rw [Bool.and_eq_true, Bool.not_eq_true', ← Bool.not_eq_true, String.isEmpty_iff, List.all_eq_true]
  exact ⟨Nat.repr_ne_empty, fun c member => Decimal.isDigit_of_mem_repr member⟩

namespace Numeral

theorem isNumber_of_ofToken? {token : Token} {numeral : Numeral}
    (spelled : ofToken? token = some numeral) : token.isNumber = true := by
  unfold ofToken? at spelled
  split at spelled
  · rename_i isNumber
    exact isNumber
  · cases spelled

theorem nonneg_of_ofToken? {token : Token} {numeral : Numeral}
    (spelled : ofToken? token = some numeral) : 0 ≤ numeral.value.value := by
  rw [value_of_ofToken? spelled]
  exact Int.natCast_nonneg _

/-- The text of an address that is not negative is a numeral for it. -/
theorem ofToken?_text {address : Address} (nonneg : 0 ≤ address.value) :
    ofToken? ⟨address.text⟩ = some ⟨address.text, address⟩ := by
  have isText : address.text = address.value.toNat.repr := Decimal.ofInt_of_nonneg nonneg
  have denoted : Address.ofInt? (Decimal.value address.text.toList) = some address := by
    rw [Address.ofInt?_eq_some_iff, isText, Decimal.value_repr, Int.toNat_of_nonneg nonneg]
  unfold ofToken?
  rw [if_pos (isText ▸ Token.isNumber_repr _), denoted]
  rfl

/-- Every integer from zero to the largest address has a numeral. -/
theorem exists_of_natural {value : Int} (nonneg : 0 ≤ value)
    (bounded : value ≤ 9223372036854775807) :
    ∃ numeral, ofToken? numeral.token = some numeral ∧ numeral.value.value = value ∧
      numeral.digits = Decimal.ofInt value := by
  have fits : Address.Fits value := ⟨by omega, bounded⟩
  refine ⟨⟨Decimal.ofInt value, ⟨value, fits⟩⟩, ?_, rfl, rfl⟩
  exact ofToken?_text (show 0 ≤ (Address.mk value fits).value from nonneg)

end Numeral

/-- The numerals of an operation that was read are numbers. -/
theorem Operation.isNumber_of_mem_numerals {mnemonic : String} {role : Role} {label : Option String}
    {rest : List Token} {numeral : Numeral}
    (member : numeral ∈ (read mnemonic role label rest).numerals) :
    numeral.token.isNumber = true := by
  rcases ofToken?_of_mem_numerals member with ⟨token, spelled⟩
  rw [Numeral.token_of_ofToken? spelled]
  exact Numeral.isNumber_of_ofToken? spelled

end FirstPass
