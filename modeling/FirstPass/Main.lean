import FirstPass.Host.Command

namespace FirstPass
namespace Command

/-!
The command on a real machine.

This is the only module that reads or writes.  It opens the input, writes the
listing, and prints what the command has to say; everything else is decided
by the functions it calls.  The threshold of the log is set by an environment
variable.
-/

/-- The number of a system error, which may come with a minus sign. -/
def errorNumber (code : UInt32) : Nat :=
  min code.toNat (UInt32.size - code.toNat)

/-- The cause behind an error of the machine. -/
def causeOf : IO.Error → Cause
  | .noFileOrDirectory _ _ _ => .system .notFound
  | .inappropriateType _ code _ =>
      .system (if errorNumber code = 20 then .notADirectory else .isADirectory)
  | .resourceExhausted _ code details =>
      if errorNumber code = 28 then .system .noSpace else .other details
  | error => .other error.toString

def openInput (name : FileName) : IO Opened := do
  try
    let content ← IO.FS.readBinFile name.shown
    pure (.content content.data.toList)
  catch error =>
    match causeOf error with
    | .system .isADirectory => pure (.unreadable (.system .isADirectory))
    | cause => pure (.refused cause)

def writeListing (output : Option FileName) (text : String) : IO (Except Failure Unit) := do
  match output with
  | some name =>
      try
        IO.FS.withFile name.shown .write fun handle => do
          handle.write text.toUTF8
          handle.flush
        pure (.ok ())
      catch error => pure (.error (.output name (causeOf error)))
  | none =>
      try
        IO.print text
        (← IO.getStdout).flush
        pure (.ok ())
      catch error => pure (.error (.stdout (causeOf error)))

def perform (job : Job) : IO (Except Failure Report × List Notice) := do
  match SourceFile.read job.input (← openInput job.input) with
  | .error failure => pure (.error failure, [])
  | .ok lines =>
      let transcript := transcribe InstructionSet.standard lines
      let notices := job.notices lines transcript.events
      match ← writeListing job.output (Listing.text transcript.report job.full) with
      | .error failure => pure (.error failure, notices)
      | .ok () => pure (.ok transcript.report, notices)

end Command
end FirstPass

open FirstPass in
def main (arguments : List String) : IO UInt32 := do
  let threshold := Log.threshold (← IO.getEnv "RUST_LOG")
  match Request.ofArguments (arguments.map FileName.ofString) with
  | .job job =>
      let (result, notices) ← Command.perform job
      let ending := Command.Ending.ofResult result
      let logged := Command.logLines job threshold (notices ++ ending.notice?.toList)
      IO.eprint (Text.unlines (logged ++ ending.message?.toList))
      pure ending.status
  | request =>
      let outcome := Command.run request ⟨FileSystem.initial, false⟩ threshold
      IO.print outcome.stdout
      IO.eprint outcome.stderr
      pure outcome.status
