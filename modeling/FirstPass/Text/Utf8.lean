namespace FirstPass
namespace Utf8

/-!
The UTF-8 encoding.

A sequence of bytes is cut into pieces: an encoded character, or bytes that
encode none.  A malformed piece is as long as the longest beginning of some
encoded character that stands there, and at least one byte long.  Strict
reading accepts a sequence without malformed pieces; the forgiving reading
shows each malformed piece as one replacement character.

The ranges for the second byte exclude the encodings that are longer than
needed, the surrogates, and the numbers beyond the last code point.
-/

/-- A piece of a sequence of bytes. -/
inductive Piece
  | char (c : Char)
  | malformed (bytes : List UInt8)
deriving DecidableEq, Repr

def isContinuation (byte : UInt8) : Bool :=
  0x80 ≤ byte && byte ≤ 0xBF

/-- The number of bytes that a leading byte announces after itself, with the
least and the greatest second byte.  A byte that leads nothing has none. -/
def announced (lead : UInt8) : Option (Nat × UInt8 × UInt8) :=
  if 0xC2 ≤ lead && lead ≤ 0xDF then some (1, 0x80, 0xBF)
  else if lead = 0xE0 then some (2, 0xA0, 0xBF)
  else if lead = 0xED then some (2, 0x80, 0x9F)
  else if 0xE1 ≤ lead && lead ≤ 0xEF then some (2, 0x80, 0xBF)
  else if lead = 0xF0 then some (3, 0x90, 0xBF)
  else if 0xF1 ≤ lead && lead ≤ 0xF3 then some (3, 0x80, 0xBF)
  else if lead = 0xF4 then some (3, 0x80, 0x8F)
  else none

/-- The code point of a complete encoding: the payload bits of the leading
byte followed by six bits from each later byte. -/
def codePoint (lead : UInt8) (later : List UInt8) : Nat :=
  let payload := match later.length with
    | 1 => lead.toNat % 0x20
    | 2 => lead.toNat % 0x10
    | _ => lead.toNat % 0x08
  later.foldl (fun total byte => total * 0x40 + byte.toNat % 0x40) payload

/-- The later bytes that stand after a leading byte, at most as many as it
announces, up to the first byte that cannot stand there. -/
def laterBytes (count : Nat) (least greatest : UInt8) : List UInt8 → List UInt8
  | [] => []
  | second :: rest =>
      if least ≤ second && second ≤ greatest then
        second :: (rest.take (count - 1)).takeWhile isContinuation
      else []

/-- The first piece of a non-empty sequence, and how many bytes after the
leading one belong to it. -/
def cut (lead : UInt8) (rest : List UInt8) : Piece × Nat :=
  if lead < 0x80 then (.char (Char.ofNat lead.toNat), 0)
  else match announced lead with
    | none => (.malformed [lead], 0)
    | some (count, least, greatest) =>
        let later := laterBytes count least greatest rest
        if later.length = count then (.char (Char.ofNat (codePoint lead later)), count)
        else (.malformed (lead :: later), later.length)

/-- All pieces of a sequence, in order. -/
def pieces : List UInt8 → List Piece
  | [] => []
  | lead :: rest => (cut lead rest).1 :: pieces (rest.drop (cut lead rest).2)
termination_by bytes => bytes.length
decreasing_by simp only [List.length_drop, List.length_cons]; omega

/-- The characters of a sequence without malformed pieces. -/
def decode? (bytes : List UInt8) : Option (List Char) :=
  (pieces bytes).mapM fun
    | .char c => some c
    | .malformed _ => none

/-- The forgiving reading: a replacement character for each malformed piece. -/
def decodeLossy (bytes : List UInt8) : List Char :=
  (pieces bytes).map fun
    | .char c => c
    | .malformed _ => '\ufffd'

/-- The bytes that encode a text. -/
def encode (text : String) : List UInt8 :=
  text.toUTF8.data.toList

end Utf8
end FirstPass
