import FirstPass.Proofs.Grammar
import FirstPass.Proofs.Lexing
import FirstPass.Proofs.PrintedTable
import Mathlib.Data.List.Induction
import Mathlib.Data.Nat.Digits.Defs

namespace FirstPass

/-!
Numbers and the digits that spell them.

A token is a numeral if it denotes a number in decimal notation that is not too
large for an address.  The runs of digits that denote a number are its decimal text
and the same text with zeros in front, so reading undoes writing, and all that it
forgets is the zeros.

The range can be checked at the end or after every digit.  A digit never makes a
number smaller, so a reader that takes digits one by one and gives up as soon as it
is out of range gives up on the numbers that are too large and on no others.
-/

namespace Decimal

/-- What a digit counts at the last place. -/
def weight (digit : Char) : Nat :=
  digit.toNat - '0'.toNat

/-- A text denotes a number: it is a run of digits, and the number is the sum of their
weights, each times the power of ten for its place. -/
structure Denotes (text : List Char) (number : Nat) : Prop where
  nonempty : text ≠ []
  digits : ∀ c ∈ text, '0' ≤ c ∧ c ≤ '9'
  places : Nat.ofDigits 10 (text.reverse.map weight) = number

/-- The number that has the digits of another number and further digits behind them. -/
def extend (number : Nat) (text : List Char) : Nat :=
  text.foldl (fun total digit => 10 * total + weight digit) number

theorem extend_zero (text : List Char) : extend 0 text = value text :=
  rfl

theorem extend_cons (number : Nat) (digit : Char) (rest : List Char) :
    extend number (digit :: rest) = extend (10 * number + weight digit) rest := by
  rw [extend, List.foldl_cons, extend]

theorem value_cons (digit : Char) (rest : List Char) :
    value (digit :: rest) = extend (weight digit) rest := by
  rw [← extend_zero, extend_cons, Nat.mul_zero, Nat.zero_add]

theorem value_zero_cons (text : List Char) : value ('0' :: text) = value text :=
  value_cons '0' text

/-- Further digits do not make a number smaller. -/
theorem le_extend (number : Nat) (text : List Char) : number ≤ extend number text := by
  induction text generalizing number with
  | nil => exact Nat.le_refl number
  | cons digit rest ih =>
      rw [extend_cons]
      calc
        number ≤ 10 * number + weight digit := by omega
        _ ≤ extend (10 * number + weight digit) rest := ih _

/-- The value of a run of digits is the sum over its places. -/
theorem value_eq_ofDigits (text : List Char) :
    value text = Nat.ofDigits 10 (text.reverse.map weight) := by
  induction text using List.reverseRecOn with
  | nil => rfl
  | append_singleton digits digit ih =>
      rw [value_append_digit, List.reverse_concat, List.map_cons, Nat.ofDigits_cons, ← ih,
        Nat.add_comm, weight]

theorem denotes_iff {text : List Char} {number : Nat} :
    Denotes text number ↔ text ≠ [] ∧ (∀ c ∈ text, c.isDigit = true) ∧ value text = number := by
  simp only [Token.isDigit_iff, value_eq_ofDigits]
  constructor
  · rintro ⟨nonempty, digits, places⟩
    exact ⟨nonempty, digits, places⟩
  · rintro ⟨nonempty, digits, places⟩
    exact ⟨nonempty, digits, places⟩

/-! ## Zeros in front -/

/-- A digit is known from its weight, which is below ten. -/
theorem digitChar_weight {c : Char} (isDigit : c.isDigit = true) :
    weight c < 10 ∧ Nat.digitChar (weight c) = c := by
  rcases Token.isDigit_iff.mp isDigit with ⟨atLeast, atMost⟩
  have above : 48 ≤ c.toNat := atLeast
  have below : c.toNat ≤ 57 := atMost
  have isWeight : weight c = c.toNat - 48 := rfl
  have small : weight c < 10 := by omega
  refine ⟨small, ?_⟩
  apply Char.toNat_inj.mp
  rw [Nat.toNat_digitChar_of_lt_ten small]
  omega

/-- Digits behind a number other than zero are the last digits of the number that they
lead to.  Behind zero this fails, since its own digit would be lost. -/
theorem toDigits_append {number : Nat} (positive : 0 < number) {text : List Char}
    (digits : ∀ c ∈ text, c.isDigit = true) :
    Nat.toDigits 10 number ++ text = Nat.toDigits 10 (extend number text) := by
  induction text generalizing number with
  | nil => exact List.append_nil _
  | cons digit rest ih =>
      rcases List.forall_mem_cons.mp digits with ⟨isDigit, laterDigits⟩
      rcases digitChar_weight isDigit with ⟨small, same⟩
      have stillPositive : 0 < 10 * number + weight digit := by omega
      calc
        Nat.toDigits 10 number ++ digit :: rest =
            Nat.toDigits 10 number ++ Nat.toDigits 10 (weight digit) ++ rest := by
          rw [Nat.toDigits_of_lt_base small, same, List.append_assoc, List.singleton_append]
        _ = Nat.toDigits 10 (10 * number + weight digit) ++ rest := by
          rw [Nat.toDigits_append_toDigits (by decide) positive small]
        _ = Nat.toDigits 10 (extend number (digit :: rest)) := by
          rw [ih stillPositive laterDigits, extend_cons]

/-- A run of digits is the decimal text of its value, but for zeros in front. -/
theorem exists_zeros {text : List Char} (nonempty : text ≠ [])
    (digits : ∀ c ∈ text, c.isDigit = true) :
    ∃ zeros, text = List.replicate zeros '0' ++ Nat.toDigits 10 (value text) := by
  induction text with
  | nil => exact absurd rfl nonempty
  | cons first rest ih =>
      rcases List.forall_mem_cons.mp digits with ⟨isDigit, laterDigits⟩
      by_cases isZero : first = '0'
      · subst isZero
        by_cases alone : rest = []
        · -- A single zero is a decimal text itself and stands in front of nothing.
          subst alone
          exact ⟨0, rfl⟩
        · rcases ih alone laterDigits with ⟨zeros, isRest⟩
          refine ⟨zeros + 1, ?_⟩
          rw [value_zero_cons, List.replicate_succ, List.cons_append, ← isRest]
      · rcases digitChar_weight isDigit with ⟨small, same⟩
        have positive : 0 < weight first := by
          apply Nat.pos_of_ne_zero
          intro zero
          rw [zero] at same
          exact isZero same.symm
        have whole := toDigits_append positive laterDigits
        rw [Nat.toDigits_of_lt_base small, same, ← value_cons] at whole
        exact ⟨0, whole⟩

theorem value_zeros_append (zeros : Nat) (text : List Char) :
    value (List.replicate zeros '0' ++ text) = value text := by
  induction zeros with
  | zero => rfl
  | succ zeros ih => rw [List.replicate_succ, List.cons_append, value_zero_cons, ih]

/-- What denotes a number is its decimal text with any number of zeros in front. -/
theorem denotes_iff_zeros {text : List Char} {number : Nat} :
    Denotes text number ↔ ∃ zeros, text = List.replicate zeros '0' ++ (ofInt number).toList := by
  have written : (ofInt number).toList = Nat.toDigits 10 number := Nat.toList_repr
  rw [denotes_iff, written]
  constructor
  · rintro ⟨nonempty, digits, isValue⟩
    subst isValue
    exact exists_zeros nonempty digits
  · rintro ⟨zeros, isText⟩
    subst isText
    refine ⟨?_, ?_, ?_⟩
    · intro empty
      exact Nat.toDigits_ne_nil (List.append_eq_nil_iff.mp empty).2
    · intro c member
      rcases List.mem_append.mp member with isZero | isDigit
      · rw [List.eq_of_mem_replicate isZero]
        rfl
      · exact Nat.isDigit_of_mem_toDigits (by decide) (by decide) isDigit
    · rw [value_zeros_append, value_toDigits]

end Decimal

/-! ## One digit after another -/

namespace Address

/-- The address with a digit behind its own digits.  The tens have to be in range, and
then the sum. -/
def withDigit? (address : Address) (digit : Char) : Option Address :=
  (ofInt? (10 * address.value)).bind fun tens => tens.offset? (Decimal.weight digit)

/-- Read digits one by one, and give up as soon as the number is out of range. -/
def ofDigits? (text : List Char) : Option Address :=
  text.foldlM withDigit? zero

theorem withDigit?_eq {address : Address} (nonneg : 0 ≤ address.value) (digit : Char) :
    address.withDigit? digit = ofInt? (10 * address.value + Decimal.weight digit) := by
  unfold withDigit?
  by_cases fits : Fits (10 * address.value)
  · rw [ofInt?_of_fits fits]
    rfl
  · -- If the tens are too large, then so is the sum.
    have outOfRange : ¬ Fits (10 * address.value + Decimal.weight digit) := by
      unfold Fits at fits ⊢
      omega
    rw [ofInt?_of_not_fits fits, ofInt?_of_not_fits outOfRange]
    rfl

/-- Checking the range after every digit comes to the same as checking it at the end. -/
theorem foldlM_withDigit? {address : Address} (nonneg : 0 ≤ address.value) (text : List Char) :
    text.foldlM withDigit? address = ofInt? (Decimal.extend address.value.toNat text) := by
  induction text generalizing address with
  | nil =>
      apply Eq.symm
      apply ofInt?_eq_some_iff.mpr
      exact (Int.toNat_of_nonneg nonneg).symm
  | cons digit rest ih =>
      rw [List.foldlM_cons, withDigit?_eq nonneg, Decimal.extend_cons]
      by_cases fits : Fits (10 * address.value + Decimal.weight digit)
      · have stillNonneg : 0 ≤ (mk _ fits).value := by
          show 0 ≤ 10 * address.value + Decimal.weight digit
          omega
        have reached : (mk _ fits).value.toNat =
            10 * address.value.toNat + Decimal.weight digit := by
          show (10 * address.value + Decimal.weight digit).toNat = _
          omega
        rw [ofInt?_of_fits fits, ← reached]
        exact ih stillNonneg
      · -- The digits that follow do not bring the number back into the range.
        have larger := Decimal.le_extend (10 * address.value.toNat + Decimal.weight digit) rest
        have outOfRange :
            ¬ Fits (Decimal.extend (10 * address.value.toNat + Decimal.weight digit) rest) := by
          unfold Fits at fits ⊢
          omega
        rw [ofInt?_of_not_fits fits, ofInt?_of_not_fits outOfRange]
        rfl

theorem ofDigits?_eq_some_iff {text : List Char} {address : Address} :
    ofDigits? text = some address ↔ address.value = Decimal.value text := by
  have atEnd : ofDigits? text = ofInt? (Decimal.value text) :=
    foldlM_withDigit? (Int.le_refl 0) text
  rw [atEnd, ofInt?_eq_some_iff]

end Address

/-! ## Tokens -/

namespace Token

theorem spells_iff_value {token : Token} {address : Address} :
    token.Spells address ↔ ∃ number, Decimal.Denotes token.text.toList number ∧
      address.value = number := by
  rw [Spells, isNumber_iff]
  simp only [Decimal.denotes_iff]
  constructor
  · rintro ⟨⟨nonempty, digits⟩, isValue⟩
    exact ⟨_, ⟨nonempty, digits, rfl⟩, isValue⟩
  · rintro ⟨number, ⟨nonempty, digits, isNumber⟩, isValue⟩
    subst isNumber
    exact ⟨⟨nonempty, digits⟩, isValue⟩

/-- A token spells an address if it denotes the number of the address, and each number
up to the largest address is one. -/
theorem spells_iff {token : Token} {address : Address} :
    token.Spells address ↔ ∃ number, Decimal.Denotes token.text.toList number ∧
      number ≤ 9223372036854775807 ∧ address.value = number := by
  rw [spells_iff_value]
  constructor
  · rintro ⟨number, denotes, isValue⟩
    have bounded := address.fits.2
    exact ⟨number, denotes, by omega, isValue⟩
  · rintro ⟨number, denotes, _, isValue⟩
    exact ⟨number, denotes, isValue⟩

theorem exists_spells_iff {token : Token} :
    (∃ address, token.Spells address) ↔
      ∃ number, Decimal.Denotes token.text.toList number ∧ number ≤ 9223372036854775807 := by
  constructor
  · rintro ⟨address, spelled⟩
    rcases spells_iff.mp spelled with ⟨number, denotes, bounded, _⟩
    exact ⟨number, denotes, bounded⟩
  · rintro ⟨number, denotes, bounded⟩
    have fits : Address.Fits number := ⟨by omega, by omega⟩
    exact ⟨⟨number, fits⟩, spells_iff.mpr ⟨number, denotes, bounded, rfl⟩⟩

/-- A text without blanks is one token. -/
theorem scan_of_solid {text : String} (solid : Solid text.toList) : scan text = [⟨text⟩] := by
  rw [scan, words_of_no_blank solid.nonempty solid.unbroken, List.map_singleton,
    String.ofList_toList]

end Token

theorem Address.solid_text (address : Address) : Token.Solid address.text.toList := by
  have solid : ∀ number : Nat, Token.Solid number.repr.toList := fun number =>
    Token.solid_of_isNumber (Token.isNumber_repr number)
  unfold text
  cases address.value with
  | ofNat magnitude => exact solid magnitude
  | negSucc below =>
      rw [Decimal.toList_ofInt_negSucc]
      refine ⟨List.cons_ne_nil _ _, ?_⟩
      intro c member
      rcases List.mem_cons.mp member with minus | digit
      · rw [minus]
        rfl
      · exact (solid (below + 1)).unbroken c digit

namespace Numeral

theorem read_eq_ok_iff {mnemonic : String} {token : Token} {numeral : Numeral} :
    read mnemonic token = .ok numeral ↔ numeral.digits = token.text ∧
      token.Spells numeral.value := by
  constructor
  · intro success
    exact ⟨congrArg Token.text (token_of_read success), spells_of_read success⟩
  · rintro ⟨digits, spelled⟩
    rw [read_of_spells mnemonic spelled, ← digits]

theorem read_eq_error_iff {mnemonic : String} {token : Token} {fault : Fault} :
    read mnemonic token = .error fault ↔
      fault = .badOperand mnemonic token.text ∧ ¬ ∃ address, token.Spells address := by
  by_cases spelled : ∃ address, token.Spells address
  · rcases spelled with ⟨address, spells⟩
    rw [read_of_spells mnemonic spells]
    constructor
    · intro failure
      cases failure
    · rintro ⟨_, unspelled⟩
      exact absurd ⟨address, spells⟩ unspelled
  · rw [read_of_not_spells mnemonic (not_exists.mp spelled), Except.error.injEq, eq_comm]
    exact (and_iff_left spelled).symm

/-- Numbers are read exactly, and reading undoes writing.  A token is read as a numeral
if and only if it denotes, in decimal notation, a number that is at most the largest
address, and then that number is the value.  In every other case the fault names the
mnemonic and the token.  The tokens that denote a number are its decimal text with any
number of zeros in front.  A check of the range after each digit accepts the same
tokens, with the same values.  The text of an address is one token, which is read as
that address unless the address is negative. -/
theorem reading_is_exact (mnemonic : String) (token : Token) :
    let outcome := read mnemonic token
    let text := token.text.toList
    (∀ numeral, outcome = .ok numeral ↔ numeral.digits = token.text ∧
      ∃ number, Decimal.Denotes text number ∧ number ≤ 9223372036854775807 ∧
        numeral.value.value = number) ∧
    (∀ fault, outcome = .error fault ↔ fault = .badOperand mnemonic token.text ∧
      ¬ ∃ number, Decimal.Denotes text number ∧ number ≤ 9223372036854775807) ∧
    (∀ number, Decimal.Denotes text number ↔
      ∃ zeros, text = List.replicate zeros '0' ++ (Decimal.ofInt number).toList) ∧
    (∀ value, outcome = .ok ⟨token.text, value⟩ ↔
      (∃ number, Decimal.Denotes text number) ∧ Address.ofDigits? text = some value) ∧
    ∀ address : Address, Token.scan address.text = [⟨address.text⟩] ∧
      (read mnemonic ⟨address.text⟩ = .ok ⟨address.text, address⟩ ↔ 0 ≤ address.value) := by
  intro outcome text
  refine ⟨?_, ?_, fun number => Decimal.denotes_iff_zeros, ?_, ?_⟩
  · intro numeral
    rw [read_eq_ok_iff, Token.spells_iff]
  · intro fault
    rw [read_eq_error_iff, Token.exists_spells_iff]
  · intro value
    rw [read_eq_ok_iff, Token.spells_iff_value, Address.ofDigits?_eq_some_iff, and_iff_right rfl]
    constructor
    · rintro ⟨number, denotes, isValue⟩
      rcases Decimal.denotes_iff.mp denotes with ⟨_, _, isNumber⟩
      exact ⟨⟨number, denotes⟩, by rw [isNumber, isValue]⟩
    · rintro ⟨⟨number, denotes⟩, isValue⟩
      rcases Decimal.denotes_iff.mp denotes with ⟨_, _, isNumber⟩
      exact ⟨number, denotes, by rw [isValue, isNumber]⟩
  · intro address
    refine ⟨Token.scan_of_solid address.solid_text, ?_, ?_⟩
    · intro success
      exact nonneg_of_ofToken? (ofToken?_of_read success)
    · intro nonneg
      simp only [read, ofToken?_text nonneg]

/-- The largest address, with zeros in front, and the number after it. -/
example :
    read "DS" ⟨"0009223372036854775807"⟩ =
      .ok ⟨"0009223372036854775807", ⟨9223372036854775807, by decide⟩⟩ ∧
    read "DS" ⟨"9223372036854775808"⟩ = .error (.badOperand "DS" "9223372036854775808") := by
  decide +kernel

end Numeral
end FirstPass
