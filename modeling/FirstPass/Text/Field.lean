namespace FirstPass

/-!
Text fields of a least width.

A field asks for a least width and, if it wishes, for a side.  Texts and
numbers fill a field differently.  A text stands at the left unless the field
says otherwise, and can be cut to a greatest length.  A number stands at the
right, can show a plus sign, and can be filled with zeros, which stand
between its sign and its digits whatever the side.  Widths and lengths count
characters.
-/

/-- Where the content of a field stands. -/
inductive Side
  | left
  | right
  | middle
deriving DecidableEq, Repr

/-- The wishes of a field. -/
structure Field where
  width : Nat := 0
  side : Option Side := none
  zeros : Bool := false
  plus : Bool := false
  precision : Option Nat := none
deriving DecidableEq, Repr

namespace Field

def spaces (count : Nat) : String :=
  String.ofList (List.replicate count ' ')

/-- Surround a text with spaces up to the width of the field.  In the middle,
an odd space goes to the right. -/
def pad (field : Field) (usual : Side) (text : String) : String :=
  let missing := field.width - text.length
  match field.side.getD usual with
  | .left => text ++ spaces missing
  | .right => spaces missing ++ text
  | .middle => spaces (missing / 2) ++ text ++ spaces (missing - missing / 2)

/-- A text in a field: cut to the precision, then at the left by default. -/
def text (field : Field) (content : String) : String :=
  let shown := match field.precision with
    | none => content
    | some most => String.ofList (content.toList.take most)
  field.pad .left shown

/-- An integer in a field: at the right by default. -/
def integer (field : Field) (number : Int) : String :=
  let sign := if number < 0 then "-" else if field.plus then "+" else ""
  let digits := number.natAbs.repr
  if field.zeros then
    sign ++ String.ofList (List.replicate (field.width - sign.length - digits.length) '0') ++ digits
  else
    field.pad .right (sign ++ digits)

end Field
end FirstPass
