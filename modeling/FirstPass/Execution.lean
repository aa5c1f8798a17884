import FirstPass.Event
import FirstPass.Record
import FirstPass.Statement

namespace FirstPass

/-!
Carrying out statements.

The first pass knows a symbol table and a location counter.  A statement
changes them, hands on records, and reports at most one fault.  A statement
with a fault is still shown in the intermediate code as far as it can be.
-/

/-- What the first pass knows between two statements. -/
structure State where
  symbols : SymbolTable := ∅
  counter : LocationCounter := .unstarted
deriving DecidableEq, Repr

/-- What a statement does, or statements one after the other. -/
structure Effect where
  state : State
  records : List Record := []
  faults : List Fault := []
  events : List Event := []
deriving DecidableEq, Repr

namespace State

/-- Give a symbol a value.  A symbol that had one before is redefined. -/
def bind (state : State) (name : String) (value : Symbol.Value) : State × List Event :=
  match state.symbols.assign name value with
  | (none, symbols) => ({ state with symbols }, [])
  | (some before, symbols) => ({ state with symbols }, [.redefined name before value])

/-- Make sure that a symbol is in the table. -/
def mention (state : State) (name : String) : State :=
  { state with symbols := (state.symbols.insertIfNew name .unresolved).2 }

/-- Make sure that the symbol of a term is in the table. -/
def mentionTerm (state : State) : Term → State
  | .number _ => state
  | .symbol name => state.mention name

end State

/-- A reference to a symbol carries its place in the table, counted from one.
A symbol that is not in the table has the number zero. -/
def Record.ofReference (symbols : SymbolTable) (name : String) : Record :=
  .reference name (match symbols.index? name with
    | some place => place + 1
    | none => 0)

/-- The record of the term of an address expression. -/
def Record.ofTerm (symbols : SymbolTable) : Term → Record
  | .number numeral => .constant numeral.digits
  | .symbol name => .ofReference symbols name

namespace Operation

/-- Start the location counter at an address. -/
def executeStart (mnemonic : String) (descriptor : Descriptor) (address : Numeral) (state : State) :
    Effect :=
  let records := [.ofDescriptor none descriptor, .constant address.digits]
  match state.counter.startAt address.value with
  | .ok counter =>
      { state := { state with counter }, records, events := [.counterStarted address.value] }
  | .error refusal => { state, records, faults := [.ofRefusal mnemonic refusal] }

/-- End the location counter. -/
def executeFinish (mnemonic : String) (descriptor : Descriptor) (state : State) : Effect :=
  let (refusal, counter) := state.counter.finish
  { state := { state with counter }
    records := [.ofDescriptor none descriptor]
    faults := (refusal.map (.ofRefusal mnemonic)).toList
    events := [.counterEnded counter] }

/-- Move the location counter to the value of an expression.  The counter
must be running before the expression is looked at, and the symbol table
stays as it is. -/
def executeOrigin (mnemonic : String) (descriptor : Descriptor) (target : Expression)
    (state : State) : Effect :=
  let records := [.ofDescriptor none descriptor, .ofTerm state.symbols target.term]
  let fails (fault : Fault) : Effect := { state, records, faults := [fault] }
  match state.counter.here with
  | .error refusal => fails (.ofRefusal mnemonic refusal)
  | .ok _ => match target.evaluate state.symbols with
    | .error fault => fails (.ofArithmetic fault)
    | .ok .unresolved => fails (.unresolvedSymbol target.term.text)
    | .ok .unplaced => fails (.unplacedSymbol target.term.text)
    | .ok (.address place) => match state.counter.moveTo place with
      | .error refusal => fails (.ofRefusal mnemonic refusal)
      | .ok counter => { state := { state with counter }, records, events := [.counterMoved place] }

/-- Give the label of the line the value of an expression.  If the expression
has no value, the label becomes unresolved. -/
def executeEquate (descriptor : Descriptor) (label : Option String) (meaning : Expression)
    (state : State) : Effect :=
  let mentioned := state.mentionTerm meaning.term
  let records := [.ofDescriptor none descriptor, .ofTerm mentioned.symbols meaning.term]
  match label with
  | none => { state := mentioned, records, faults := [.missingLabel] }
  | some name =>
      let (value, faults) := match meaning.evaluate mentioned.symbols with
        | .ok value => (value, [])
        | .error fault => (.unresolved, [.ofArithmetic fault])
      let (bound, events) := mentioned.bind name value
      { state := bound, records, faults, events := .equated name value :: events }

/-- Reserve some words.  The count is shown whether or not they fit. -/
def executeReserve (mnemonic : String) (descriptor : Descriptor) (count : Numeral) (state : State) :
    Effect :=
  match state.counter.occupy count.value.value with
  | .ok (first, counter) =>
      { state := { state with counter }
        records := [.ofDescriptor (some first) descriptor, .constant count.digits] }
  | .error refusal =>
      { state, records := [.constant count.digits], faults := [.ofRefusal mnemonic refusal] }

/-- Occupy one word. -/
def executeWord (mnemonic : String) (descriptor : Descriptor) (state : State) : Effect :=
  match state.counter.occupy 1 with
  | .ok (first, counter) =>
      { state := { state with counter }, records := [.ofDescriptor (some first) descriptor] }
  | .error refusal => { state, faults := [.ofRefusal mnemonic refusal] }

/-- Carry out the operation of a mnemonic. -/
def execute (mnemonic : String) (descriptor : Descriptor) (operation : Operation) (state : State) :
    Effect :=
  match operation with
  | .start address => executeStart mnemonic descriptor address state
  | .finish => executeFinish mnemonic descriptor state
  | .origin target => executeOrigin mnemonic descriptor target state
  | .equate label meaning => executeEquate descriptor label meaning state
  | .reserve count => executeReserve mnemonic descriptor count state
  | .word => executeWord mnemonic descriptor state
  | .malformed _ fault =>
      { state, records := [.ofDescriptor none descriptor], faults := [fault] }

end Operation

namespace Statement

/-- Carry out a statement.  A label gets the value of the location counter;
a reference only makes its symbol known. -/
def execute (statement : Statement) (state : State) : Effect :=
  match statement with
  | .instruction mnemonic descriptor operation => operation.execute mnemonic descriptor state
  | .register _ code => { state, records := [.register code] }
  | .condition _ code => { state, records := [.condition code] }
  | .constant digits => { state, records := [.constant digits] }
  | .label name =>
      let (bound, events) := state.bind name (.ofPlace state.counter.value)
      { state := bound, records := [.label name], events }
  | .reference name =>
      let mentioned := state.mention name
      { state := mentioned, records := [.ofReference mentioned.symbols name] }

end Statement
end FirstPass
