import FirstPass.Execution
import FirstPass.Text.Lines

namespace FirstPass

/-!
The first pass over a program.

Lines are numbered from one and carried out in order, each from the state
that the line before it left.  A line yields its records, its faults and the
location counter after it.  The report of a program has its lines and the
last state; beside it stand the events, in the order in which they happened.
-/

/-- Carry out statements one after the other. -/
def Statement.executeAll (state : State) : List Statement → Effect
  | [] => { state }
  | statement :: rest =>
      let effect := statement.execute state
      let later := executeAll effect.state rest
      { state := later.state
        records := effect.records ++ later.records
        faults := effect.faults ++ later.faults
        events := effect.events ++ later.events }

/-- The effects of two lists of statements follow each other. -/
theorem Statement.executeAll_append (state : State) (first second : List Statement) :
    executeAll state (first ++ second) =
      let earlier := executeAll state first
      let later := executeAll earlier.state second
      { state := later.state
        records := earlier.records ++ later.records
        faults := earlier.faults ++ later.faults
        events := earlier.events ++ later.events } := by
  induction first generalizing state with
  | nil => rfl
  | cons statement rest ih => simp only [List.cons_append, executeAll, ih, List.append_assoc]

/-- A line of the program after the first pass. -/
structure AssembledLine where
  number : Nat
  records : List Record := []
  faults : List Fault := []
  counter : LocationCounter := .unstarted
deriving DecidableEq, Repr

namespace AssembledLine

/-- The text of the intermediate code of a line. -/
def text (line : AssembledLine) : String :=
  String.join (line.records.map Record.text)

def diagnostics (line : AssembledLine) : List Diagnostic :=
  line.faults.map fun fault => ⟨line.number, fault⟩

end AssembledLine

/-- The result of the first pass over a program. -/
structure Report where
  lines : List AssembledLine := []
  symbols : SymbolTable := ∅
  counter : LocationCounter := .unstarted
deriving DecidableEq, Repr

namespace Report

/-- All faults with their lines, in line order. -/
def diagnostics (report : Report) : List Diagnostic :=
  report.lines.flatMap AssembledLine.diagnostics

def hasFaults (report : Report) : Bool :=
  report.lines.any fun line => !line.faults.isEmpty

end Report

/-- One line carried out: the line, the state after it, and what happened. -/
structure Step where
  line : AssembledLine
  state : State
  events : List Event
deriving DecidableEq, Repr

/-- Carry out one line.  Its faults are reported after everything else that
happened, and then the location counter. -/
def State.step (set : InstructionSet) (state : State) (number : Nat) (source : String) : Step :=
  let effect := Statement.executeAll state (Statement.ofLine set source)
  let line : AssembledLine := ⟨number, effect.records, effect.faults, effect.state.counter⟩
  { line
    state := effect.state
    events := effect.events ++ line.diagnostics.map .diagnosed ++ [.lineDone number line.counter] }

/-- Carry out lines, the first of which has the given number. -/
def State.steps (set : InstructionSet) (state : State) (number : Nat) : List String → List Step
  | [] => []
  | source :: rest =>
      let step := state.step set number source
      step :: step.state.steps set (number + 1) rest

/-- The state that steps lead to from a state. -/
def State.afterSteps (state : State) (steps : List Step) : State :=
  steps.foldl (fun _ step => step.state) state

/-- Carrying out two stretches of lines is carrying out the first and then, from
the state it leads to, the second. -/
theorem State.steps_append (set : InstructionSet) (state : State) (number : Nat)
    (first second : List String) :
    state.steps set number (first ++ second) =
      state.steps set number first ++
        (state.afterSteps (state.steps set number first)).steps set (number + first.length)
          second := by
  induction first generalizing state number with
  | nil => rfl
  | cons source rest ih =>
      have shift : number + 1 + rest.length = number + (source :: rest).length := by
        simp only [List.length_cons]; omega
      simp only [List.cons_append, State.steps, State.afterSteps, List.foldl_cons]
      rw [ih, shift, State.afterSteps]

/-- A report with the events that led to it. -/
structure Transcript where
  report : Report
  events : List Event
deriving DecidableEq, Repr

/-- The first pass over lines, with its events. -/
def transcribe (set : InstructionSet) (lines : List String) : Transcript :=
  let initial : State := {}
  let steps := initial.steps set 1 lines
  let final := initial.afterSteps steps
  { report := ⟨steps.map Step.line, final.symbols, final.counter⟩
    events := steps.flatMap Step.events ++ [.passDone steps.length final.symbols.size] }

/-- The first pass over lines. -/
def assemble (set : InstructionSet) (lines : List String) : Report :=
  (transcribe set lines).report

/-- The first pass over the lines of a text. -/
def assembleText (set : InstructionSet) (text : String) : Report :=
  assemble set (Text.lines text)

end FirstPass
