import FirstPass.Event
import FirstPass.Host.Failure

namespace FirstPass

/-!
Notices: what is logged while a file is assembled.

Beside the events of the pass these are the reading of the source, the
writing of the listing, and how it all ended.
-/

inductive Notice
  | sourceRead (lines : Nat) (name : FileName)
  | pass (event : Event)
  | writing (name : FileName)
  | failed (failure : Failure)
  | succeeded (symbols : Nat)
deriving DecidableEq, Repr

def Notice.entry : Notice → Log.Entry
  | .sourceRead lines name =>
      ⟨.debug, [], .pass, "read " ++ lines.repr ++ " lines from " ++ name.shown⟩
  | .pass event => event.entry
  | .writing name => ⟨.debug, [.listing], .output, "writing listing to " ++ name.shown⟩
  | .failed failure => ⟨.error, [], .command, "assembly failed: " ++ failure.detail⟩
  | .succeeded symbols =>
      ⟨.info, [], .command, "pass 1 succeeded, " ++ symbols.repr ++ " symbols defined"⟩

end FirstPass
