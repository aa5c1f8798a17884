import FirstPass.Host.Request

namespace FirstPass
namespace Command

/-!
The command.

A job ends in one of three ways: with a correct program, with faults in the
program, or with a failure.  The exit status is zero only for a correct
program; otherwise one line on the standard error says why.  What is logged
goes to the standard error as well, as far as it reaches the threshold.
-/

/-- How a job ended. -/
inductive Ending
  | correct (symbols : Nat)
  | faulty (faults : Nat)
  | failed (failure : Failure)
deriving DecidableEq, Repr

namespace Ending

def ofResult : Except Failure Report → Ending
  | .error failure => .failed failure
  | .ok report =>
      match report.diagnostics.length with
      | 0 => .correct report.symbols.size
      | faults => .faulty faults

def status : Ending → UInt32
  | .correct _ => 0
  | .faulty _ | .failed _ => 1

/-- The last notice of a job.  Faults of the program have been reported
before. -/
def notice? : Ending → Option Notice
  | .correct symbols => some (.succeeded symbols)
  | .faulty _ => none
  | .failed failure => some (.failed failure)

/-- The line on the standard error that says why the status is not zero. -/
def message? : Ending → Option String
  | .correct _ => none
  | .faulty 1 => some "the program contains an error"
  | .faulty faults => some ("the program contains " ++ faults.repr ++ " errors")
  | .failed failure => some failure.message

end Ending

/-- The scope of a whole job. -/
def scope (job : Job) : Log.Scope :=
  .command job.input.quoted (match job.output with
    | some name => "Some(" ++ name.quoted ++ ")"
    | none => "None")

/-- The lines of the log for notices of a job. -/
def logLines (job : Job) (threshold : Option Log.Level) (notices : List Notice) : List String :=
  Log.lines threshold (notices.map fun notice => notice.entry.within (scope job))

/-- What the command does, seen from outside. -/
structure Outcome where
  status : UInt32
  stdout : String := ""
  stderr : String := ""
  files : FileSystem

def versionText : String :=
  "assembler 0.1.0\n"

def helpText : String :=
  Text.unlines
    ["First pass of a two-pass assembler: prints the symbol table (and, optionally, the " ++
        "intermediate code) of an assembly program",
      "",
      "Usage: pass1as [OPTIONS] <INPUT>",
      "",
      "Arguments:",
      "  <INPUT>  File from which assembly source is read",
      "",
      "Options:",
      "  -o, --output <OUTPUT>  File to which the listing is written (standard output if omitted)",
      "      --list             When set, print the intermediate code of every line before the " ++
        "symbol table",
      "  -h, --help             Print help",
      "  -V, --version          Print version"]

def misuseText : String :=
  Text.unlines
    ["error: the arguments cannot be used",
      "",
      "Usage: pass1as [OPTIONS] <INPUT>",
      "",
      "For more information, try '--help'."]

/-- Do what was requested. -/
def run (request : Request) (host : Host) (threshold : Option Log.Level) : Outcome :=
  let shows (text : String) : Outcome :=
    { status := 0, stdout := if host.stdoutFull then "" else text, files := host.files }
  match request with
  | .help => shows helpText
  | .version => shows versionText
  | .misuse => { status := 2, stderr := misuseText, files := host.files }
  | .job job =>
      let delivery := job.run host
      let ending := Ending.ofResult delivery.result
      let logged := logLines job threshold (delivery.notices ++ ending.notice?.toList)
      { status := ending.status
        stdout := delivery.stdout
        stderr := Text.unlines (logged ++ ending.message?.toList)
        files := delivery.files }

end Command
end FirstPass
