import FirstPass.Expression

namespace FirstPass

/-!
What an address expression evaluates to.

The value is computed on exact integers, from the address of the term.  There
are five outcomes.  A symbol without an address gives its own value, whatever
is to be done with it: even a division by zero goes unnoticed then.  If the
term has an address, the result is an address again, or a division by zero, or
out of range.
-/

/-- The address of a term: a numeral is its own address, and a symbol has the
one in the table. -/
inductive Term.PlacedAt (symbols : SymbolTable) : Term → Address → Prop
  | number (numeral : Numeral) : PlacedAt symbols (.number numeral) numeral.value
  | symbol {name : String} {place : Address} (found : symbols.find? name = some (.address place)) :
      PlacedAt symbols (.symbol name) place

theorem Term.PlacedAt.value_eq {symbols : SymbolTable} {term : Term} {place : Address}
    (placed : term.PlacedAt symbols place) : term.value symbols = .address place := by
  cases placed with
  | number numeral => rfl
  | symbol found => rw [Term.value, found, Option.getD_some]

namespace Operator

theorem apply_of_zero (left : Int) {right : Int} (zero : right = 0) :
    divide.apply left right = .error .divisionByZero :=
  if_pos ⟨rfl, zero⟩

theorem apply_of_exact {operator : Operator} {left right : Int}
    (defined : operator = .divide → right ≠ 0) {address : Address}
    (isExact : address.value = operator.exact left right) :
    operator.apply left right = .ok address := by
  have fits : Address.ofInt? (operator.exact left right) = some address :=
    Address.ofInt?_eq_some_iff.mpr isExact
  rw [apply, if_neg (fun zero => defined zero.1 zero.2), fits]

theorem apply_of_not_fits {operator : Operator} {left right : Int}
    (defined : operator = .divide → right ≠ 0)
    (outOfRange : ¬ Address.Fits (operator.exact left right)) :
    operator.apply left right = .error .overflow := by
  rw [apply, if_neg (fun zero => defined zero.1 zero.2), Address.ofInt?_of_not_fits outOfRange]

end Operator

namespace Expression

/-- The integer that an expression stands for if its term has an address.  A
division by zero stands for none. -/
inductive Amounts (place : Address) : Expression → Int → Prop
  | bare (term : Term) : Amounts place ⟨term, none⟩ place.value
  | calculation (term : Term) {operator : Operator} {numeral : Numeral}
      (defined : operator = .divide → numeral.value.value ≠ 0) :
      Amounts place ⟨term, some (operator, numeral)⟩
        (operator.exact place.value numeral.value.value)

/-- The outcomes of an expression. -/
inductive Evaluates (symbols : SymbolTable) :
    Expression → Except ArithmeticFault Symbol.Value → Prop
  | unresolved {name : String} {arithmetic : Option (Operator × Numeral)}
      (missing : symbols.find? name = none ∨ symbols.find? name = some .unresolved) :
      Evaluates symbols ⟨.symbol name, arithmetic⟩ (.ok .unresolved)
  | unplaced {name : String} {arithmetic : Option (Operator × Numeral)}
      (found : symbols.find? name = some .unplaced) :
      Evaluates symbols ⟨.symbol name, arithmetic⟩ (.ok .unplaced)
  | address {expression : Expression} {place result : Address}
      (placed : expression.term.PlacedAt symbols place)
      (amounts : expression.Amounts place result.value) :
      Evaluates symbols expression (.ok (.address result))
  | divisionByZero {term : Term} {place : Address} {numeral : Numeral}
      (placed : term.PlacedAt symbols place) (zero : numeral.value.value = 0) :
      Evaluates symbols ⟨term, some (.divide, numeral)⟩ (.error .divisionByZero)
  | overflow {expression : Expression} {place : Address} {number : Int}
      (placed : expression.term.PlacedAt symbols place) (amounts : expression.Amounts place number)
      (outOfRange : ¬ Address.Fits number) : Evaluates symbols expression (.error .overflow)

variable {symbols : SymbolTable}

/-! ## From the address of the term -/

theorem Amounts.evaluate_eq {expression : Expression} {place result : Address}
    (amounts : expression.Amounts place result.value)
    (placed : expression.term.PlacedAt symbols place) :
    expression.evaluate symbols = .ok (.address result) := by
  generalize isNumber : result.value = number at amounts
  cases amounts with
  | bare term =>
      have same : result = place := by
        cases result
        cases isNumber
        rfl
      rw [evaluate, placed.value_eq, same]
  | calculation term defined =>
      rw [evaluate, placed.value_eq]
      simp only [Operator.apply_of_exact defined isNumber, Except.map]

theorem Amounts.evaluate_eq_overflow {expression : Expression} {place : Address} {number : Int}
    (amounts : expression.Amounts place number) (outOfRange : ¬ Address.Fits number)
    (placed : expression.term.PlacedAt symbols place) :
    expression.evaluate symbols = .error .overflow := by
  cases amounts with
  | bare term => exact absurd place.fits outOfRange
  | calculation term defined =>
      rw [evaluate, placed.value_eq]
      simp only [Operator.apply_of_not_fits defined outOfRange, Except.map]

/-- An expression whose term has an address stands for an integer, unless it
divides by zero. -/
theorem amounts_or_divides (expression : Expression) (place : Address) :
    (∃ number, expression.Amounts place number) ∨
      ∃ numeral : Numeral, numeral.value.value = 0 ∧
        expression.arithmetic = some (.divide, numeral) := by
  rcases expression with ⟨term, _ | ⟨operator, numeral⟩⟩
  · exact Or.inl ⟨_, .bare term⟩
  · by_cases zero : operator = .divide ∧ numeral.value.value = 0
    · exact Or.inr ⟨numeral, zero.2, by rw [zero.1]⟩
    · exact Or.inl ⟨_, .calculation term (fun divides isZero => zero ⟨divides, isZero⟩)⟩

theorem exists_evaluates_of_placedAt {expression : Expression} {place : Address}
    (placed : expression.term.PlacedAt symbols place) :
    ∃ outcome, expression.Evaluates symbols outcome := by
  rcases amounts_or_divides expression place with ⟨number, amounts⟩ | ⟨numeral, zero, divides⟩
  · by_cases fits : Address.Fits number
    · have isResult : expression.Amounts place (Address.mk number fits).value := amounts
      exact ⟨_, .address placed isResult⟩
    · exact ⟨_, .overflow placed amounts fits⟩
  · rcases expression with ⟨term, arithmetic⟩
    cases divides
    exact ⟨_, .divisionByZero placed zero⟩

/-! ## All expressions -/

/-- Every expression has an outcome. -/
theorem exists_evaluates (symbols : SymbolTable) (expression : Expression) :
    ∃ outcome, expression.Evaluates symbols outcome := by
  rcases expression with ⟨numeral | name, arithmetic⟩
  · exact exists_evaluates_of_placedAt (.number numeral)
  · cases found : symbols.find? name with
    | none => exact ⟨_, .unresolved (Or.inl found)⟩
    | some value =>
        cases value with
        | address place => exact exists_evaluates_of_placedAt (.symbol found)
        | unresolved => exact ⟨_, .unresolved (Or.inr found)⟩
        | unplaced => exact ⟨_, .unplaced found⟩

theorem Evaluates.evaluate_eq {expression : Expression}
    {outcome : Except ArithmeticFault Symbol.Value}
    (evaluates : expression.Evaluates symbols outcome) : expression.evaluate symbols = outcome := by
  cases evaluates with
  | unresolved missing =>
      rcases missing with missing | missing <;>
        simp only [evaluate, Term.value, missing, Option.getD]
  | unplaced found => simp only [evaluate, Term.value, found, Option.getD]
  | address placed amounts => exact amounts.evaluate_eq placed
  | divisionByZero placed zero =>
      rw [evaluate, placed.value_eq]
      simp only [Operator.apply_of_zero _ zero, Except.map]
  | overflow placed amounts outOfRange => exact amounts.evaluate_eq_overflow outOfRange placed

/-- Evaluation computes the outcome of an expression. -/
theorem evaluates_iff {expression : Expression} {outcome : Except ArithmeticFault Symbol.Value} :
    expression.Evaluates symbols outcome ↔ expression.evaluate symbols = outcome := by
  constructor
  · exact Evaluates.evaluate_eq
  · intro isOutcome
    rcases exists_evaluates symbols expression with ⟨found, evaluates⟩
    rw [← isOutcome, evaluates.evaluate_eq]
    exact evaluates

end Expression
end FirstPass
