import FirstPass.Address

namespace FirstPass

/-!
The four arithmetic operators of address expressions.

An operator is applied to exact integers.  Division goes toward zero.  The
result must be an address again, so there are two ways to fail: division by
zero, and a result out of range.
-/

inductive Operator
  | add
  | subtract
  | multiply
  | divide
deriving DecidableEq, Repr

/-- Why an operator has no result. -/
inductive ArithmeticFault
  | divisionByZero
  | overflow
deriving DecidableEq, Repr

/-- The wording of an arithmetic fault. -/
def ArithmeticFault.message : ArithmeticFault → String
  | .divisionByZero => "division by zero"
  | .overflow => "arithmetic overflow"

namespace Operator

def symbol : Operator → String
  | .add => "+"
  | .subtract => "-"
  | .multiply => "*"
  | .divide => "/"

/-- The operator that a text spells, if it is one. -/
def ofSymbol? (text : String) : Option Operator :=
  if text = "+" then some .add
  else if text = "-" then some .subtract
  else if text = "*" then some .multiply
  else if text = "/" then some .divide
  else none

theorem symbol_of_ofSymbol? {text : String} {operator : Operator}
    (known : ofSymbol? text = some operator) : operator.symbol = text := by
  unfold ofSymbol? at known
  grind [Operator.symbol]

/-- The wording for a text that spells no operator. -/
def unknownMessage (text : String) : String :=
  "'" ++ text ++ "' is not an arithmetic operator"

/-- The exact result.  A quotient goes toward zero. -/
def exact : Operator → Int → Int → Int
  | .add, left, right => left + right
  | .subtract, left, right => left - right
  | .multiply, left, right => left * right
  | .divide, left, right => left.tdiv right

/-- The exact result as an address. -/
def apply (operator : Operator) (left right : Int) : Except ArithmeticFault Address :=
  if operator = .divide ∧ right = 0 then .error .divisionByZero
  else match Address.ofInt? (operator.exact left right) with
    | some address => .ok address
    | none => .error .overflow

end Operator
end FirstPass
