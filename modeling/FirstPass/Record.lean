import FirstPass.Address
import FirstPass.InstructionSet

namespace FirstPass

/-!
Intermediate code.

A record is what the first pass hands on for one token.  The text of a line
of intermediate code is the texts of its records, one after the other.
-/

inductive Record
  | instruction (address : Option Address) (category : Category) (opcode : Opcode)
  | register (code : OperandCode)
  | condition (code : OperandCode)
  | constant (digits : String)
  | reference (name : String) (index : Nat)
  | label (name : String)
deriving DecidableEq, Repr

namespace Record

/-- The record of a mnemonic at a place, or at none. -/
def ofDescriptor (address : Option Address) (descriptor : Descriptor) : Record :=
  .instruction address descriptor.category descriptor.opcode

/-- An instruction without an address is indented; a label leaves no text. -/
def text : Record → String
  | .instruction address category opcode =>
      let place := match address with
        | some place => place.text ++ " "
        | none => "    "
      place ++ "(" ++ category.text ++ " , " ++ opcode.text ++ ")"
  | .register code | .condition code => code.text
  | .constant digits => "(C , " ++ digits ++ ")"
  | .reference _ index => "(S , " ++ index.repr ++ ")"
  | .label _ => ""

end Record
end FirstPass
