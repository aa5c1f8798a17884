import FirstPass.LocationCounter
import FirstPass.Operator

namespace FirstPass

/-!
Faults of a program.

A fault belongs to a line and never stops the pass.  This module lists the
causes, with one function for their wording.
-/

inductive Fault
  | counterUnstarted (mnemonic : String)
  | afterEnd (mnemonic : String)
  | unresolvedSymbol (name : String)
  | unplacedSymbol (name : String)
  | divisionByZero
  | addressOutOfRange
  | missingOperand (mnemonic expected : String)
  | badOperand (mnemonic operand : String)
  | unknownOperator (text : String)
  | missingLabel
deriving DecidableEq, Repr

namespace Fault

def message : Fault → String
  | .counterUnstarted mnemonic =>
      "location counter is not initialized (" ++ mnemonic ++ " before START)"
  | .afterEnd mnemonic => mnemonic ++ " appears after END"
  | .unresolvedSymbol name => "symbol " ++ name ++ " not found in symbol table"
  | .unplacedSymbol name => "symbol " ++ name ++ " does not have a valid address"
  | .divisionByZero => "division by zero"
  | .addressOutOfRange => "address is out of range"
  | .missingOperand mnemonic expected => mnemonic ++ " needs " ++ expected
  | .badOperand mnemonic operand => "'" ++ operand ++ "' is not a valid operand for " ++ mnemonic
  | .unknownOperator text => Operator.unknownMessage text
  | .missingLabel => "EQU needs a label to define"

/-- The fault of an address expression without a result. -/
def ofArithmetic : ArithmeticFault → Fault
  | .divisionByZero => .divisionByZero
  | .overflow => .addressOutOfRange

/-- The fault of a mnemonic that the location counter refused. -/
def ofRefusal (mnemonic : String) : LocationCounter.Refusal → Fault
  | .unstarted => .counterUnstarted mnemonic
  | .ended => .afterEnd mnemonic
  | .overflow => .addressOutOfRange

end Fault

/-- A fault with the number of its line. -/
structure Diagnostic where
  line : Nat
  fault : Fault
deriving DecidableEq, Repr

def Diagnostic.text (diagnostic : Diagnostic) : String :=
  "line " ++ diagnostic.line.repr ++ ": " ++ diagnostic.fault.message

end FirstPass
