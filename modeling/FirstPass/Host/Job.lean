import FirstPass.Host.Notice
import FirstPass.Host.SourceFile
import FirstPass.Listing

namespace FirstPass

/-!
Jobs: assembling a file.

A job reads a source file, runs the first pass with the standard instruction
set, and writes the listing to a file or to the standard output.  The source
is read completely before anything is written, so the output may replace the
input.  Faults of the program are part of the listing; only reading and
writing can fail.
-/

structure Job where
  input : FileName
  output : Option FileName := none
  full : Bool := false
deriving DecidableEq, Repr

/-- The surroundings of a job: the files, and whether the standard output
refuses everything. -/
structure Host where
  files : FileSystem
  stdoutFull : Bool := false
deriving DecidableEq, Repr

/-- What a job leaves behind. -/
structure Delivery where
  result : Except Failure Report
  files : FileSystem
  stdout : String := ""
  notices : List Notice := []

namespace Host

/-- Write a text to a file, or to the standard output: the files afterwards,
and what appears on the standard output. -/
def write (host : Host) (output : Option FileName) (text : String) :
    Except Failure (FileSystem × String) :=
  match output with
  | some name => match host.files.write name (Utf8.encode text) with
    | .ok files => .ok (files, "")
    | .error cause => .error (.output name cause)
  | none => if host.stdoutFull then .error (.stdout (.system .noSpace)) else .ok (host.files, text)

end Host

namespace Job

/-- The notices of a job whose source was read. -/
def notices (job : Job) (lines : List String) (events : List Event) : List Notice :=
  .sourceRead lines.length job.input :: events.map .pass ++
    job.output.toList.map .writing

/-- Do a job. -/
def run (job : Job) (host : Host) : Delivery :=
  match SourceFile.read job.input (host.files.openInput job.input) with
  | .error failure => { result := .error failure, files := host.files }
  | .ok lines =>
      let transcript := transcribe InstructionSet.standard lines
      let notices := job.notices lines transcript.events
      match host.write job.output (Listing.text transcript.report job.full) with
      | .ok (files, stdout) => { result := .ok transcript.report, files, stdout, notices }
      | .error failure => { result := .error failure, files := host.files, notices }

end Job
end FirstPass
