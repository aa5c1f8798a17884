import FirstPass.Text.Quoted

namespace FirstPass

/-!
File names.

A file name is a sequence of bytes that need not be a text.  Where a name is
shown to a reader, bytes that are no text become replacement characters;
where it is quoted, every byte can be told.
-/

structure FileName where
  bytes : List UInt8
deriving DecidableEq, Repr

namespace FileName

def ofString (name : String) : FileName :=
  ⟨Utf8.encode name⟩

/-- The name with replacement characters where it is no text. -/
def shown (name : FileName) : String :=
  String.ofList (Utf8.decodeLossy name.bytes)

/-- The name as it is shown, with a remark if it had to be changed. -/
def remarked (name : FileName) : String :=
  match Utf8.decode? name.bytes with
  | some text => String.ofList text
  | none =>
      name.shown ++ " (some non-Unicode characters changed to make it printable)"

def quoted (name : FileName) : String :=
  Quoted.bytes name.bytes

end FileName
end FirstPass
