import FirstPass.Fault
import FirstPass.Log
import FirstPass.Symbol

namespace FirstPass

/-!
Events of the first pass.

An event says what happened, and from it follow its level, its message, and the part
of the program that it comes from.
-/

inductive Event
  | counterStarted (address : Address)
  | counterMoved (address : Address)
  | counterEnded (counter : LocationCounter)
  | equated (name : String) (value : Symbol.Value)
  | redefined (name : String) (before after : Symbol.Value)
  | diagnosed (diagnostic : Diagnostic)
  | lineDone (line : Nat) (counter : LocationCounter)
  | passDone (lines symbols : Nat)
deriving DecidableEq, Repr

namespace Event

def level : Event → Log.Level
  | .diagnosed _ => .warn
  | .redefined _ _ _ | .lineDone _ _ => .trace
  | _ => .debug

def part : Event → Log.Part
  | .redefined _ _ _ => .symbols
  | .diagnosed _ | .lineDone _ _ | .passDone _ _ => .pass
  | _ => .directive

def message : Event → String
  | .counterStarted address => "location counter starts at " ++ address.text
  | .counterMoved address => "ORIGIN: location counter moves to " ++ address.text
  | .counterEnded counter => "END: location counter is " ++ counter.text
  | .equated name value => "EQU: " ++ name ++ " = " ++ value.text
  | .redefined name before after =>
      "symbol " ++ name ++ " redefined: " ++ before.text ++ " -> " ++ after.text
  | .diagnosed diagnostic => diagnostic.text
  | .lineDone line counter =>
      "line " ++ line.repr ++ ": location counter is " ++ counter.text
  | .passDone lines symbols =>
      "pass 1 complete: " ++ lines.repr ++ " lines, " ++ symbols.repr ++ " symbols"

/-- The log entry of an event of the pass. -/
def entry (event : Event) : Log.Entry :=
  ⟨event.level, [.pass], event.part, event.message⟩

end Event
end FirstPass
