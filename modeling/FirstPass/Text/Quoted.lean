import FirstPass.Text.Hidden
import FirstPass.Text.Utf8

namespace FirstPass
namespace Quoted

/-!
Quoted forms of texts and of byte sequences.

Between double quotes stand the characters, with a backslash form for the
double quote, the backslash and the common controls, and the code point in
braces for any other character without a shape.  A single quote ends nothing
there and stands as it is.  Bytes that are not UTF-8 are shown as two
hexadecimal digits each.
-/

/-- The hexadecimal digits of a number, in lower case. -/
def hexadecimal (number : Nat) : String :=
  String.ofList (Nat.toDigits 16 number)

/-- A byte as a backslash form with two hexadecimal digits in upper case. -/
def byte (value : UInt8) : String :=
  let digits := (Nat.toDigits 16 value.toNat).map Char.toUpper
  "\\x" ++ (if value < 0x10 then "0" else "") ++ String.ofList digits

/-- The code point of a character between braces. -/
def codePoint (c : Char) : String :=
  "\\u\x7b" ++ hexadecimal c.toNat ++ "\x7d"

/-- How a character is shown between quotes. -/
def char (c : Char) : String :=
  if c = '\x00' then "\\0"
  else if c = '\t' then "\\t"
  else if c = '\r' then "\\r"
  else if c = '\n' then "\\n"
  else if c = '\\' then "\\\\"
  else if c = '"' then "\\\""
  else if Text.isHidden c then codePoint c
  else String.singleton c

/-- A piece of a byte sequence between quotes. -/
def piece : Utf8.Piece → String
  | .char c => char c
  | .malformed bytes => String.join (bytes.map byte)

/-- The quoted form of a byte sequence. -/
def bytes (content : List UInt8) : String :=
  "\"" ++ String.join ((Utf8.pieces content).map piece) ++ "\""

end Quoted
end FirstPass
