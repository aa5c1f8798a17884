import FirstPass.Address

namespace FirstPass

/-!
The location counter.

The counter has no value before it is started.  While it runs it holds the
address of the next word.  Once ended it keeps the value it had, if any, and
never changes again.
-/

inductive LocationCounter
  | unstarted
  | running (address : Address)
  | ended (last : Option Address)
deriving DecidableEq, Repr

namespace LocationCounter

instance : Inhabited LocationCounter :=
  ⟨unstarted⟩

/-- Why the counter refuses an operation. -/
inductive Refusal
  | unstarted
  | ended
  | overflow
deriving DecidableEq, Repr

/-- The address that the counter holds, running or ended. -/
def value : LocationCounter → Option Address
  | .unstarted => none
  | .running address => some address
  | .ended last => last

def isEnded : LocationCounter → Bool
  | .ended _ => true
  | _ => false

/-- The address of the next word. -/
def here : LocationCounter → Except Refusal Address
  | .running address => .ok address
  | .unstarted => .error .unstarted
  | .ended _ => .error .ended

/-- Start the counter, or start it again, unless it has ended. -/
def startAt (counter : LocationCounter) (address : Address) : Except Refusal LocationCounter :=
  match counter with
  | .ended _ => .error .ended
  | .unstarted | .running _ => .ok (.running address)

/-- Take up some words: their first address, and the counter after them. -/
def occupy (counter : LocationCounter) (words : Int) : Except Refusal (Address × LocationCounter) :=
  match counter.here with
  | .error refusal => .error refusal
  | .ok first => match first.offset? words with
    | some next => .ok (first, .running next)
    | none => .error .overflow

/-- Continue at another address. -/
def moveTo (counter : LocationCounter) (address : Address) : Except Refusal LocationCounter :=
  match counter.here with
  | .error refusal => .error refusal
  | .ok _ => .ok (.running address)

/-- End the counter.  That a counter was not running is reported, but it ends
all the same. -/
def finish (counter : LocationCounter) : Option Refusal × LocationCounter :=
  let refusal := match counter.here with
    | .ok _ => none
    | .error refusal => some refusal
  (refusal, .ended counter.value)

def text : LocationCounter → String
  | .unstarted => "uninitialized"
  | .running address => address.text
  | .ended (some last) => last.text ++ " (terminated)"
  | .ended none => "terminated"

end LocationCounter
end FirstPass
