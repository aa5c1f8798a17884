import FirstPass.Proofs.Evaluation
import FirstPass.Proofs.Numerals

namespace FirstPass

/-!
Exact arithmetic.

The results of the four operators are described here as integers, a quotient by
what it leaves.  An operator gives the address that is the result, and fails if
there is no result or if the result is out of range; it never gives another
address.  The second operand of an expression is a numeral and therefore not
negative, so a division in an expression stays in range: it can only fail by
dividing by zero.
-/

/-- A quotient that goes toward zero.  What it leaves is smaller than the divisor,
and lies on the same side of zero as the dividend. -/
structure IsQuotient (dividend divisor quotient : Int) : Prop where
  small : (dividend - divisor * quotient).natAbs < divisor.natAbs
  above : 0 ≤ dividend → 0 ≤ dividend - divisor * quotient
  below : dividend ≤ 0 → dividend - divisor * quotient ≤ 0

/-- A divisor other than zero has one quotient. -/
theorem isQuotient_iff {dividend divisor quotient : Int} :
    IsQuotient dividend divisor quotient ↔ divisor ≠ 0 ∧ quotient = dividend.tdiv divisor := by
  constructor
  · intro isQuotient
    have defined : divisor ≠ 0 := Int.natAbs_pos.mp (Nat.zero_lt_of_lt isQuotient.small)
    have small := isQuotient.small
    have whole : dividend - divisor * quotient + divisor * quotient = dividend :=
      Int.sub_add_cancel _ _
    refine ⟨defined, ?_⟩
    rcases Int.le_total 0 dividend with nonneg | nonpos
    · have above := isQuotient.above nonneg
      have unique := (Int.tdiv_tmod_unique nonneg defined).mpr ⟨whole, above, by omega⟩
      exact unique.1.symm
    · have below := isQuotient.below nonpos
      have unique := (Int.tdiv_tmod_unique' nonpos defined).mpr ⟨whole, by omega, below⟩
      exact unique.1.symm
  · rintro ⟨defined, isQuotient⟩
    have left : dividend - divisor * quotient = dividend.tmod divisor := by
      rw [isQuotient, Int.tmod_def]
    refine ⟨?_, ?_, ?_⟩
    · rw [left, Int.natAbs_tmod]
      exact Nat.mod_lt _ (Int.natAbs_pos.mpr defined)
    · intro nonneg
      rw [left]
      exact Int.tmod_nonneg divisor nonneg
    · intro nonpos
      rw [left]
      exact ((Int.tdiv_tmod_unique' nonpos defined).mp ⟨rfl, rfl⟩).2.2

namespace Operator

/-- The integer that is the result of an operator.  A division by zero has none. -/
inductive Yields (left right : Int) : Operator → Int → Prop
  | sum : Yields left right .add (left + right)
  | difference : Yields left right .subtract (left - right)
  | product : Yields left right .multiply (left * right)
  | quotient {quotient : Int} (isQuotient : IsQuotient left right quotient) :
      Yields left right .divide quotient

theorem yields_iff {operator : Operator} {left right number : Int} :
    operator.Yields left right number ↔
      (operator = .divide → right ≠ 0) ∧ number = operator.exact left right := by
  constructor
  · intro yields
    cases yields with
    | sum => exact ⟨nofun, rfl⟩
    | difference => exact ⟨nofun, rfl⟩
    | product => exact ⟨nofun, rfl⟩
    | quotient isQuotient =>
        rcases isQuotient_iff.mp isQuotient with ⟨defined, isExact⟩
        exact ⟨fun _ => defined, isExact⟩
  · rintro ⟨defined, isExact⟩
    subst isExact
    cases operator with
    | add => exact .sum
    | subtract => exact .difference
    | multiply => exact .product
    | divide => exact .quotient (isQuotient_iff.mpr ⟨defined rfl, rfl⟩)

/-- An operator divides by zero or has a result. -/
theorem divides_or_yields (operator : Operator) (left right : Int) :
    (operator = .divide ∧ right = 0) ∨ ∃ number, operator.Yields left right number := by
  by_cases zero : operator = .divide ∧ right = 0
  · exact Or.inl zero
  · exact Or.inr ⟨_, yields_iff.mpr ⟨fun divides isZero => zero ⟨divides, isZero⟩, rfl⟩⟩

section Apply

variable {operator : Operator} {left right : Int}

theorem Yields.apply_eq {result : Address} (yields : operator.Yields left right result.value) :
    operator.apply left right = .ok result := by
  rcases yields_iff.mp yields with ⟨defined, isExact⟩
  exact apply_of_exact defined isExact

theorem Yields.apply_eq_overflow {number : Int} (yields : operator.Yields left right number)
    (outOfRange : ¬ Address.Fits number) : operator.apply left right = .error .overflow := by
  rcases yields_iff.mp yields with ⟨defined, isExact⟩
  exact apply_of_not_fits defined (isExact ▸ outOfRange)

/-- The outcomes of an operator: a division by zero, the result as an address, or a
result out of range. -/
theorem apply_cases (operator : Operator) (left right : Int) :
    (operator = .divide ∧ right = 0 ∧ operator.apply left right = .error .divisionByZero) ∨
    (∃ result : Address, operator.Yields left right result.value ∧
      operator.apply left right = .ok result) ∨
    ∃ number, operator.Yields left right number ∧ ¬ Address.Fits number ∧
      operator.apply left right = .error .overflow := by
  rcases divides_or_yields operator left right with ⟨divides, zero⟩ | ⟨number, yields⟩
  · subst divides
    exact Or.inl ⟨rfl, zero, apply_of_zero left zero⟩
  · by_cases fits : Address.Fits number
    · have isResult : operator.Yields left right (Address.mk number fits).value := yields
      exact Or.inr (Or.inl ⟨_, isResult, isResult.apply_eq⟩)
    · exact Or.inr (Or.inr ⟨number, yields, fits, yields.apply_eq_overflow fits⟩)

theorem apply_eq_ok_iff {result : Address} :
    operator.apply left right = .ok result ↔ operator.Yields left right result.value := by
  constructor
  · intro success
    rcases apply_cases operator left right with
      ⟨_, _, failed⟩ | ⟨found, yields, applied⟩ | ⟨_, _, _, failed⟩
    · cases failed.symm.trans success
    · cases applied.symm.trans success
      exact yields
    · cases failed.symm.trans success
  · exact Yields.apply_eq

theorem apply_eq_divisionByZero_iff :
    operator.apply left right = .error .divisionByZero ↔ operator = .divide ∧ right = 0 := by
  constructor
  · intro failure
    rcases apply_cases operator left right with
      ⟨divides, zero, _⟩ | ⟨_, _, applied⟩ | ⟨_, _, _, failed⟩
    · exact ⟨divides, zero⟩
    · cases applied.symm.trans failure
    · cases failed.symm.trans failure
  · rintro ⟨divides, zero⟩
    rw [divides]
    exact apply_of_zero left zero

theorem apply_eq_overflow_iff :
    operator.apply left right = .error .overflow ↔
      ∃ number, operator.Yields left right number ∧ ¬ Address.Fits number := by
  constructor
  · intro failure
    rcases apply_cases operator left right with
      ⟨_, _, failed⟩ | ⟨_, _, applied⟩ | ⟨number, yields, outOfRange, _⟩
    · cases failed.symm.trans failure
    · cases applied.symm.trans failure
    · exact ⟨number, yields, outOfRange⟩
  · rintro ⟨number, yields, outOfRange⟩
    exact yields.apply_eq_overflow outOfRange

end Apply
end Operator

/-- A divisor that is positive does not take a quotient out of range. -/
theorem IsQuotient.fits {dividend divisor quotient : Int}
    (isQuotient : IsQuotient dividend divisor quotient) (nonneg : 0 ≤ divisor)
    (fits : Address.Fits dividend) : Address.Fits quotient := by
  rcases isQuotient_iff.mp isQuotient with ⟨_, isExact⟩
  have smaller := Int.natAbs_tdiv_le_natAbs dividend divisor
  rw [← isExact] at smaller
  rcases Int.le_total 0 dividend with above | below
  · have side := Int.tdiv_nonneg above nonneg
    rw [← isExact] at side
    unfold Address.Fits at fits ⊢
    omega
  · have side : 0 ≤ (-dividend).tdiv divisor := Int.tdiv_nonneg (by omega) nonneg
    rw [Int.neg_tdiv, ← isExact] at side
    unfold Address.Fits at fits ⊢
    omega

namespace Expression

/-- The integer that an expression stands for if its term stands for a given one. -/
inductive StandsFor (place : Int) : Expression → Int → Prop
  | bare (term : Term) : StandsFor place ⟨term, none⟩ place
  | calculation (term : Term) {operator : Operator} {numeral : Numeral} {number : Int}
      (yields : operator.Yields place numeral.value.value number) :
      StandsFor place ⟨term, some (operator, numeral)⟩ number

theorem amounts_iff {expression : Expression} {place : Address} {number : Int} :
    expression.Amounts place number ↔ expression.StandsFor place.value number := by
  constructor
  · intro amounts
    cases amounts with
    | bare term => exact .bare term
    | calculation term defined => exact .calculation term (Operator.yields_iff.mpr ⟨defined, rfl⟩)
  · intro stands
    cases stands with
    | bare term => exact .bare term
    | calculation term yields =>
        rcases Operator.yields_iff.mp yields with ⟨defined, isExact⟩
        subst isExact
        exact .calculation term defined

theorem evaluate_eq_address_iff {expression : Expression} {symbols : SymbolTable}
    {result : Address} :
    expression.evaluate symbols = .ok (.address result) ↔
      ∃ place, expression.term.PlacedAt symbols place ∧
        expression.StandsFor place.value result.value := by
  rw [← evaluates_iff]
  constructor
  · intro evaluates
    cases evaluates with
    | address placed amounts => exact ⟨_, placed, amounts_iff.mp amounts⟩
  · rintro ⟨place, placed, stands⟩
    exact .address placed (amounts_iff.mpr stands)

/-- The second operand of an expression that was read is not negative. -/
theorem nonneg_of_read {mnemonic : String} {tokens : List Token} {expression : Expression}
    (success : (read mnemonic tokens).outcome = .ok expression) {operator : Operator}
    {numeral : Numeral} (calculates : expression.arithmetic = some (operator, numeral)) :
    0 ≤ numeral.value.value := by
  have member : numeral ∈ expression.numerals := by
    rw [numerals, calculates]
    exact List.mem_append_right _ List.mem_cons_self
  rcases ofToken?_of_mem_numerals success member with ⟨token, spelled⟩
  exact Numeral.nonneg_of_ofToken? spelled

/-- A division by a numeral fails only if the numeral is zero. -/
theorem divisionByZero_of_evaluate {expression : Expression} {symbols : SymbolTable}
    {numeral : Numeral} (divides : expression.arithmetic = some (.divide, numeral))
    (nonneg : 0 ≤ numeral.value.value) {fault : ArithmeticFault}
    (failure : expression.evaluate symbols = .error fault) :
    fault = .divisionByZero ∧ numeral.value.value = 0 := by
  cases evaluates_iff.mpr failure with
  | divisionByZero placed zero =>
      cases divides
      exact ⟨rfl, zero⟩
  | @overflow _ place number placed amounts outOfRange =>
      cases amounts_iff.mp amounts with
      | bare term => cases divides
      | calculation term yields =>
          cases divides
          cases yields with
          | quotient isQuotient => exact absurd (isQuotient.fits nonneg place.fits) outOfRange

end Expression

/-- Arithmetic is exact.  An operator on two addresses gives an address exactly if
that is the result as an integer; it reports a division by zero exactly if it divides
by zero, and an overflow exactly if the result is out of range.  So an expression has
an address exactly if its term has one and the expression stands for that number; and
an expression that was read and that divides can fail by dividing by zero only. -/
theorem arithmetic_is_exact :
    (∀ (operator : Operator) (left right : Address),
      let outcome := operator.apply left.value right.value
      (∀ result, outcome = .ok result ↔ operator.Yields left.value right.value result.value) ∧
      (outcome = .error .divisionByZero ↔ operator = .divide ∧ right.value = 0) ∧
      (outcome = .error .overflow ↔
        ∃ number, operator.Yields left.value right.value number ∧ ¬ Address.Fits number)) ∧
    ∀ (symbols : SymbolTable) (mnemonic : String) (tokens : List Token) (expression : Expression),
      (Expression.read mnemonic tokens).outcome = .ok expression →
      let outcome := expression.evaluate symbols
      (∀ result, outcome = .ok (.address result) ↔
        ∃ place, expression.term.PlacedAt symbols place ∧
          expression.StandsFor place.value result.value) ∧
      ∀ numeral, expression.arithmetic = some (.divide, numeral) → ∀ fault, outcome = .error fault →
        fault = .divisionByZero ∧ numeral.value.value = 0 := by
  refine ⟨?_, ?_⟩
  · intro operator left right outcome
    exact ⟨fun result => Operator.apply_eq_ok_iff, Operator.apply_eq_divisionByZero_iff,
      Operator.apply_eq_overflow_iff⟩
  · intro symbols mnemonic tokens expression success outcome
    refine ⟨fun result => Expression.evaluate_eq_address_iff, ?_⟩
    intro numeral divides fault failure
    exact Expression.divisionByZero_of_evaluate divides (Expression.nonneg_of_read success divides)
      failure

/-- The least address divided by minus one, a quotient that goes toward zero from
below, and two expressions that divide the least address. -/
theorem arithmetic_is_exact_at_limit :
    let least : Address := ⟨-9223372036854775808, by decide⟩
    let minusOne : Address := ⟨-1, by decide⟩
    let minusSeven : Address := ⟨-7, by decide⟩
    let two : Address := ⟨2, by decide⟩
    let symbols : SymbolTable := (SymbolTable.empty.assign "X" (.address least)).2
    let whole : Expression := ⟨.symbol "X", some (.divide, ⟨"1", ⟨1, by decide⟩⟩)⟩
    let zero : Expression := ⟨.symbol "X", some (.divide, ⟨"00", ⟨0, by decide⟩⟩)⟩
    Operator.divide.apply least.value minusOne.value = .error .overflow ∧
    Operator.divide.apply minusSeven.value two.value = .ok ⟨-3, by decide⟩ ∧
    (Expression.read "EQU" [⟨"X"⟩, ⟨"/"⟩, ⟨"1"⟩]).outcome = .ok whole ∧
    whole.evaluate symbols = .ok (.address least) ∧
    (Expression.read "EQU" [⟨"X"⟩, ⟨"/"⟩, ⟨"00"⟩]).outcome = .ok zero ∧
    zero.evaluate symbols = .error .divisionByZero ∧
    ∀ fault, zero.evaluate symbols = .error fault → fault = .divisionByZero := by
  intro least minusOne minusSeven two symbols whole zero
  rcases arithmetic_is_exact with ⟨operators, expressions⟩
  have readWhole : (Expression.read "EQU" [⟨"X"⟩, ⟨"/"⟩, ⟨"1"⟩]).outcome = .ok whole := by rfl
  have readZero : (Expression.read "EQU" [⟨"X"⟩, ⟨"/"⟩, ⟨"00"⟩]).outcome = .ok zero := by rfl
  have beyond : Operator.divide.Yields least.value minusOne.value 9223372036854775808 :=
    .quotient ⟨by decide, by decide, by decide⟩
  have towardZero : Operator.divide.Yields minusSeven.value two.value (-3) :=
    .quotient ⟨by decide, by decide, by decide⟩
  have unchanged : whole.StandsFor least.value least.value :=
    .calculation _ (.quotient ⟨by decide, by decide, by decide⟩)
  have placed : whole.term.PlacedAt symbols least := .symbol (by decide +kernel)
  refine ⟨(operators .divide least minusOne).2.2.mpr ⟨_, beyond, by decide⟩,
    ((operators .divide minusSeven two).1 _).mpr towardZero, readWhole,
    ((expressions symbols "EQU" _ whole readWhole).1 least).mpr ⟨least, placed, unchanged⟩,
    readZero, by rfl, ?_⟩
  intro fault failure
  exact ((expressions symbols "EQU" _ zero readZero).2 _ rfl fault failure).1

end FirstPass
