import FirstPass.Address
import FirstPass.Text.Field

namespace FirstPass
namespace Symbol

/-!
Symbols and their values.

A symbol usually stands for an address.  It is unresolved as long as it was
only used, and unplaced if it was defined where no address was known.
-/

inductive Value
  | address (place : Address)
  | unresolved
  | unplaced
deriving DecidableEq, Repr

/-- The value of a symbol defined at a place that may be unknown. -/
def Value.ofPlace : Option Address → Value
  | some place => .address place
  | none => .unplaced

/-- The address that a value holds. -/
def Value.address? : Value → Option Address
  | .address place => some place
  | .unresolved | .unplaced => none

/-- An unresolved symbol is shown as minus one. -/
def Value.text : Value → String
  | .address place => place.text
  | .unresolved => "-1"
  | .unplaced => "unplaced"

/-- The name of a symbol in a field. -/
def nameIn (name : String) (field : Field) : String :=
  field.text name

/-- The name of a symbol as it is shown for inspection, without any escapes. -/
def inspect (name : String) : String :=
  "SymbolName \x7b canonical: \"" ++ name ++ "\" \x7d"

end Symbol
end FirstPass
