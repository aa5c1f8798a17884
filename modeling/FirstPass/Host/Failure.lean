import FirstPass.Host.FileName

namespace FirstPass

/-!
Failures.

Unlike a fault of the program, a failure stops the work: the input could not
be read, or the listing could not be written.  A failure has a cause, which
most often is an error of the operating system.
-/

/-- An error that the operating system reports by number. -/
inductive SystemError
  | notFound
  | notADirectory
  | isADirectory
  | noSpace
  | nameTooLong
deriving DecidableEq, Repr

namespace SystemError

def number : SystemError → Nat
  | .notFound => 2
  | .notADirectory => 20
  | .isADirectory => 21
  | .noSpace => 28
  | .nameTooLong => 36

def kind : SystemError → String
  | .notFound => "NotFound"
  | .notADirectory => "NotADirectory"
  | .isADirectory => "IsADirectory"
  | .noSpace => "StorageFull"
  | .nameTooLong => "InvalidFilename"

def wording : SystemError → String
  | .notFound => "No such file or directory"
  | .notADirectory => "Not a directory"
  | .isADirectory => "Is a directory"
  | .noSpace => "No space left on device"
  | .nameTooLong => "File name too long"

end SystemError

/-- Why reading or writing failed. -/
inductive Cause
  | system (error : SystemError)
  | nulInName
  | notUtf8
  | other (text : String)
deriving DecidableEq, Repr

namespace Cause

def message : Cause → String
  | .system error => error.wording ++ " (os error " ++ error.number.repr ++ ")"
  | .nulInName => "file name contained an unexpected NUL byte"
  | .notUtf8 => "stream did not contain valid UTF-8"
  | .other text => text

/-- The cause with all its parts named. -/
def detail (cause : Cause) : String :=
  match cause with
  | .system error =>
      "Os \x7b code: " ++ error.number.repr ++ ", kind: " ++ error.kind ++
        ", message: \"" ++ error.wording ++ "\" \x7d"
  | .nulInName => "Error \x7b kind: InvalidInput, message: \"" ++ cause.message ++ "\" \x7d"
  | .notUtf8 => "Error \x7b kind: InvalidData, message: \"" ++ cause.message ++ "\" \x7d"
  | .other text => "Custom \x7b kind: Other, error: " ++ Quoted.bytes (Utf8.encode text) ++ " \x7d"

end Cause

inductive Failure
  | stdout (cause : Cause)
  | input (name : FileName) (line : Option Nat) (cause : Cause)
  | output (name : FileName) (cause : Cause)
deriving DecidableEq, Repr

namespace Failure

def message : Failure → String
  | .stdout cause => "error writing on stdout: " ++ cause.message
  | .input name line cause =>
      let place := match line with
        | some number => " at line " ++ number.repr
        | none => ""
      "I/O error reading input file " ++ name.remarked ++ place ++ ": " ++ cause.message
  | .output name cause =>
      "I/O error writing output file " ++ name.shown ++ ": " ++ cause.message

/-- The failure with all its parts named. -/
def detail : Failure → String
  | .stdout cause => "IoErrorOnStdout \x7b error: " ++ cause.detail ++ " \x7d"
  | .input name line cause =>
      let place := match line with
        | some number => "Some(" ++ number.repr ++ ")"
        | none => "None"
      "IoErrorOnInput \x7b filename: " ++ name.quoted ++ ", error: " ++ cause.detail ++
        ", line_number: " ++ place ++ " \x7d"
  | .output name cause =>
      "IoErrorOnOutput \x7b filename: " ++ name.quoted ++ ", error: " ++ cause.detail ++ " \x7d"

end Failure
end FirstPass
