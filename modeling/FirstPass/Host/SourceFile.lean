import FirstPass.Host.FileSystem
import FirstPass.Text.Lines

namespace FirstPass
namespace SourceFile

/-!
Source files.

A source file is cut into lines as bytes, and each line must be UTF-8.  The
first line that is not makes reading fail, with its number.
-/

/-- The lines of a file as bytes. -/
def byteLines (content : List UInt8) : List (List UInt8) :=
  Text.splitLines 0x0A 0x0D content

/-- The texts of lines, the first of which has the given number; or the number
of the first line that is not UTF-8. -/
def decodeLines (number : Nat) : List (List UInt8) → Except Nat (List String)
  | [] => .ok []
  | line :: rest =>
      match Utf8.decode? line with
      | none => .error number
      | some text => (decodeLines (number + 1) rest).map (String.ofList text :: ·)

/-- The lines of an opened file. -/
def read (name : FileName) : Opened → Except Failure (List String)
  | .refused cause => .error (.input name none cause)
  | .unreadable cause => .error (.input name (some 1) cause)
  | .content bytes =>
      match decodeLines 1 (byteLines bytes) with
      | .ok lines => .ok lines
      | .error number => .error (.input name (some number) .notUtf8)

end SourceFile
end FirstPass
