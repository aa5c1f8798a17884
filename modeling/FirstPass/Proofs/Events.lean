import FirstPass.Proofs.Continuation
import FirstPass.Proofs.Values

namespace FirstPass

/-!
The events of a pass tell what it did.

Statements report what they do while they change the state, and the pass itself
reports the faults of a line and its location counter once the line is done.
So the events of a line are those of its statements, then its diagnostics, and
last the counter, and the events of the program are those of its lines, with one
more at the end.

A symbol that gets a new value is reported with the value before and the one
after.  These reports fit together: each of them begins where the one before it
ended, the first one with the value that the symbol came into the table with,
and the last one ends with the value that the symbol has in the end.
-/

namespace Event

/-- Whether an event reports the end of a line. -/
def isLineDone : Event → Bool
  | .lineDone _ _ => true
  | _ => false

/-- The change of the value of a symbol that an event reports. -/
def redefinition? (name : String) : Event → Option (Symbol.Value × Symbol.Value)
  | .redefined other before after => if other = name then some (before, after) else none
  | _ => none

theorem isLineDone_of_part {event : Event} (other : event.part ≠ .pass) :
    event.isLineDone = false := by
  cases event with
  | lineDone line counter => exact absurd rfl other
  | _ => rfl

theorem level_of_part {event : Event} (other : event.part ≠ .pass) : event.level ≠ .warn := by
  cases event with
  | diagnosed diagnostic => exact absurd rfl other
  | _ => simp [level]

theorem redefinition?_of_part {event : Event} (other : event.part ≠ .symbols) (name : String) :
    event.redefinition? name = none := by
  cases event with
  | redefined symbol before after => exact absurd rfl other
  | _ => rfl

theorem eq_of_redefinition? {event : Event} {name : String} {change : Symbol.Value × Symbol.Value}
    (found : event.redefinition? name = some change) :
    event = .redefined name change.1 change.2 := by
  cases event with
  | redefined symbol before after =>
      rcases Option.ite_none_right_eq_some.mp found with ⟨same, isChange⟩
      rw [same, ← Option.some.inj isChange]
  | _ => cases found

end Event

/-- The changes of a symbol that a list of events reports. -/
def redefinitions (name : String) (events : List Event) : List (Symbol.Value × Symbol.Value) :=
  events.filterMap (Event.redefinition? name)

theorem redefinitions_append (name : String) (first second : List Event) :
    redefinitions name (first ++ second) = redefinitions name first ++ redefinitions name second :=
  List.filterMap_append

theorem redefinitions_eq_nil {name : String} {events : List Event}
    (others : ∀ event ∈ events, event.part ≠ .symbols) : redefinitions name events = [] := by
  apply List.filterMap_eq_nil_iff.mpr
  intro event member
  exact Event.redefinition?_of_part (others event member) name

/-- How changes of a symbol are written. -/
theorem messages_redefinitions (name : String) (events : List Event) :
    ((events.filter fun event => (event.redefinition? name).isSome).map
        fun event => (event.level, event.message)) =
      (redefinitions name events).map fun change => (.trace,
        "symbol " ++ name ++ " redefined: " ++ change.1.text ++ " -> " ++ change.2.text) := by
  induction events with
  | nil => rfl
  | cons event rest ih =>
      cases found : event.redefinition? name with
      | none =>
          rw [List.filter_cons_of_neg (by simp [found]), ih, redefinitions, redefinitions,
            List.filterMap_cons_none found]
      | some change =>
          rw [List.filter_cons_of_pos (by simp [found]), List.map_cons, ih, redefinitions,
            redefinitions, List.filterMap_cons_some found, List.map_cons,
            Event.eq_of_redefinition? found]
          rfl

/-! ## Where the events of a statement come from -/

theorem State.events_bind (state : State) (name : String) (value : Symbol.Value) :
    (state.bind name value).2 =
      ((state.symbols.find? name).map fun before => Event.redefined name before value).toList := by
  unfold bind SymbolTable.assign
  cases state.symbols.find? name <;> rfl

theorem State.part_of_mem_bind {state : State} {name : String} {value : Symbol.Value}
    {event : Event} (member : event ∈ (state.bind name value).2) : event.part = .symbols := by
  rw [events_bind, Option.mem_toList, Option.map_eq_some_iff] at member
  rcases member with ⟨before, _, isEvent⟩
  rw [← isEvent]
  rfl

theorem State.redefinitions_bind (state : State) (other : String) (value : Symbol.Value)
    (name : String) :
    redefinitions name (state.bind other value).2 =
      if other = name then
        ((state.symbols.find? other).map fun before => (before, value)).toList
      else [] := by
  rw [events_bind]
  cases state.symbols.find? other with
  | none => simp [redefinitions]
  | some before => by_cases same : other = name <;> simp [redefinitions, Event.redefinition?, same]

namespace Operation

/-- An equation reports its value, and then the change of its label. -/
theorem events_executeEquate (descriptor : Descriptor) (name : String) (meaning : Expression)
    (state : State) :
    ∃ value, (executeEquate descriptor (some name) meaning state).state =
        ((state.mentionTerm meaning.term).bind name value).1 ∧
      (executeEquate descriptor (some name) meaning state).events =
        .equated name value :: ((state.mentionTerm meaning.term).bind name value).2 := by
  cases evaluated : meaning.evaluate (state.mentionTerm meaning.term).symbols with
  | ok value =>
      exact ⟨value, by simp only [executeEquate, evaluated],
        by simp only [executeEquate, evaluated]⟩
  | error fault =>
      exact ⟨.unresolved, by simp only [executeEquate, evaluated],
        by simp only [executeEquate, evaluated]⟩

/-- A mnemonic that is no equation reports only what it does to the counter. -/
theorem part_of_mem_events {mnemonic : String} {descriptor : Descriptor} {operation : Operation}
    (other : operation.role? ≠ some .equate) {state : State} {event : Event}
    (member : event ∈ (operation.execute mnemonic descriptor state).events) :
    event.part = .directive := by
  cases operation with
  | start address =>
      rw [execute] at member
      rcases executeStart_cases mnemonic descriptor address state with ⟨_, done⟩ | ⟨_, refused⟩
      · rw [done] at member
        rw [List.mem_singleton.mp member]
        rfl
      · rw [refused] at member
        cases member
  | finish =>
      rw [List.mem_singleton.mp member]
      rfl
  | origin target =>
      rw [execute] at member
      rcases executeOrigin_cases mnemonic descriptor target state with
        ⟨_, _, _, _, done⟩ | ⟨_, refused⟩
      · rw [done] at member
        rw [List.mem_singleton.mp member]
        rfl
      · rw [refused] at member
        cases member
  | equate label meaning => exact absurd rfl other
  | reserve count =>
      rw [execute] at member
      rcases executeReserve_cases mnemonic descriptor count state with
        ⟨_, _, _, _, done⟩ | ⟨_, refused⟩
      · rw [done] at member
        cases member
      · rw [refused] at member
        cases member
  | word =>
      rw [execute] at member
      rcases executeWord_cases mnemonic descriptor state with ⟨_, _, _, _, done⟩ | ⟨_, refused⟩
      · rw [done] at member
        cases member
      · rw [refused] at member
        cases member
  | malformed operands fault => cases member

end Operation

namespace Statement

/-- No statement reports a diagnostic or the end of a line. -/
theorem part_of_mem_events {statement : Statement} {state : State} {event : Event}
    (member : event ∈ (statement.execute state).events) : event.part ≠ .pass := by
  cases statement with
  | instruction mnemonic descriptor operation =>
      by_cases equates : operation.role? = some .equate
      · cases operation with
        | equate label meaning =>
            cases label with
            | none => cases member
            | some name =>
                rcases Operation.events_executeEquate descriptor name meaning state with
                  ⟨value, _, events⟩
                rw [execute, Operation.execute, events] at member
                rcases List.mem_cons.mp member with first | later
                · rw [first]
                  simp [Event.part]
                · rw [State.part_of_mem_bind later]
                  decide
        | _ => cases equates
      · rw [Operation.part_of_mem_events equates member]
        decide
  | label name =>
      rw [State.part_of_mem_bind member]
      decide
  | _ => cases member

theorem part_of_mem_executeAll {statements : List Statement} {state : State} {event : Event}
    (member : event ∈ (executeAll state statements).events) : event.part ≠ .pass := by
  induction statements generalizing state with
  | nil => cases member
  | cons statement rest ih =>
      rcases List.mem_append.mp member with first | later
      · exact part_of_mem_events first
      · exact ih later

end Statement

/-! ## The changes of one symbol -/

/-- Changes of a value, each of which begins where the one before it ended. -/
inductive Symbol.Value.Chain : Value → List (Value × Value) → Value → Prop
  | nil (value : Value) : Chain value [] value
  | cons {first next last : Value} {changes : List (Value × Value)}
      (rest : Chain next changes last) :
      Chain first ((first, next) :: changes) last

theorem Symbol.Value.Chain.append {first middle last : Value} {changes later : List (Value × Value)}
    (before : Chain first changes middle) (after : Chain middle later last) :
    Chain first (changes ++ later) last := by
  induction before with
  | nil value => exact after
  | cons rest ih => exact .cons (ih after)

/-- The life of a symbol: it is never there and never changes, or it comes with
a value, goes through changes, and has a value in the end. -/
inductive Symbol.Lives : Option Value → List (Value × Value) → Option Value → Prop
  | absent : Lives none [] none
  | present {first last : Value} {changes : List (Value × Value)}
      (chain : Value.Chain first changes last) :
      Lives (some first) changes (some last)

/-- A symbol that did not change. -/
theorem Symbol.lives_self (value : Option Value) : Lives value [] value := by
  cases value with
  | none => exact .absent
  | some value => exact .present (.nil value)

/-- Two stretches of a life.  The second one begins with the value that the
first one ended with, if there was one. -/
theorem Symbol.Lives.append {first middle second last : Option Value}
    {changes later : List (Value × Value)} (before : Lives first changes middle)
    (after : Lives second later last) (goesOn : middle.or second = second) :
    Lives (first.or second) (changes ++ later) last := by
  cases before with
  | absent => exact after
  | present chain =>
      cases after with
      | absent => cases goesOn
      | present rest =>
          cases goesOn
          exact .present (chain.append rest)

namespace Statement

/-- The value that a symbol comes into the table with: the first one that it has,
from the beginning or after one of the statements. -/
def firstValue? (name : String) (state : State) : List Statement → Option Symbol.Value
  | [] => state.symbols.find? name
  | statement :: rest =>
      (state.symbols.find? name).or (firstValue? name (statement.execute state).state rest)

theorem find?_or_firstValue? (name : String) (state : State) (statements : List Statement) :
    (state.symbols.find? name).or (firstValue? name state statements) =
      firstValue? name state statements := by
  cases statements with
  | nil => rw [firstValue?, Option.or_self]
  | cons statement rest => rw [firstValue?, ← Option.or_assoc, Option.or_self]

theorem firstValue?_append (name : String) (state : State) (first second : List Statement) :
    firstValue? name state (first ++ second) =
      (firstValue? name state first).or
        (firstValue? name (executeAll state first).state second) := by
  induction first generalizing state with
  | nil => exact (find?_or_firstValue? name state second).symm
  | cons statement rest ih => rw [List.cons_append, firstValue?, ih, ← Option.or_assoc]; rfl

/-- A statement that assigns a symbol reports the change, if the symbol had a value
before. -/
theorem redefinitions_of_assigned? {statement : Statement} {name : String}
    (assigns : statement.assigned? = some name) {state : State}
    (ready : statement.equated? = some name → (state.symbols.find? name).isSome = true) :
    ∃ value, (statement.execute state).state.symbols.find? name = some value ∧
      redefinitions name (statement.execute state).events =
        ((state.symbols.find? name).map fun before => (before, value)).toList := by
  cases statement with
  | instruction mnemonic descriptor operation =>
      cases operation with
      | equate label meaning =>
          have isLabel : label = some name := assigns
          subst isLabel
          rcases Option.isSome_iff_exists.mp (ready rfl) with ⟨before, found⟩
          have mentioned := State.find?_mentionTerm found meaning.term
          rcases Operation.events_executeEquate descriptor name meaning state with
            ⟨value, bound, events⟩
          refine ⟨value, ?_, ?_⟩
          · rw [execute, Operation.execute, bound, State.symbols_bind, SymbolTable.find?_assign,
              if_pos rfl]
          · rw [execute, Operation.execute, events]
            change redefinitions name ((state.mentionTerm meaning.term).bind name value).2 = _
            rw [State.redefinitions_bind, if_pos rfl, mentioned, found]
      | _ => cases assigns
  | label defined =>
      have isName : defined = name := Option.some.inj assigns
      subst isName
      refine ⟨.ofPlace state.counter.value, ?_, ?_⟩
      · simp only [execute, State.symbols_bind]
        rw [SymbolTable.find?_assign, if_pos rfl]
      · simp only [execute]
        rw [State.redefinitions_bind, if_pos rfl]
  | _ => cases assigns

/-- No other statement reports a change of the symbol. -/
theorem redefinitions_of_not_assigned? {statement : Statement} {name : String}
    (other : statement.assigned? ≠ some name) (state : State) :
    redefinitions name (statement.execute state).events = [] := by
  cases statement with
  | instruction mnemonic descriptor operation =>
      by_cases equates : operation.role? = some .equate
      · cases operation with
        | equate label meaning =>
            cases label with
            | none => rfl
            | some defined =>
                have different : defined ≠ name := fun same => other (congrArg some same)
                rcases Operation.events_executeEquate descriptor defined meaning state with
                  ⟨value, _, events⟩
                rw [execute, Operation.execute, events]
                change redefinitions name
                  ((state.mentionTerm meaning.term).bind defined value).2 = _
                rw [State.redefinitions_bind, if_neg different]
        | _ => cases equates
      · apply redefinitions_eq_nil
        intro event member
        rw [Operation.part_of_mem_events equates member]
        decide
  | label defined =>
      have different : defined ≠ name := fun same => other (congrArg some same)
      simp only [execute]
      rw [State.redefinitions_bind, if_neg different]
  | _ => rfl

theorem assigned?_of_equated? {statement : Statement} {name : String}
    (defines : statement.equated? = some name) : statement.assigned? = some name := by
  cases statement with
  | instruction mnemonic descriptor operation => exact defines
  | _ => cases defines

/-- One statement in the life of a symbol. -/
theorem lives_execute {statement : Statement} {name : String} {state : State}
    (ready : statement.equated? = some name → (state.symbols.find? name).isSome = true) :
    Symbol.Lives ((state.symbols.find? name).or
      ((statement.execute state).state.symbols.find? name))
      (redefinitions name (statement.execute state).events)
      ((statement.execute state).state.symbols.find? name) := by
  by_cases assigns : statement.assigned? = some name
  · rcases redefinitions_of_assigned? assigns ready with ⟨value, found, changes⟩
    rw [found, changes]
    cases state.symbols.find? name with
    | none => exact Symbol.lives_self (some value)
    | some before => exact .present (.cons (.nil value))
  · rw [redefinitions_of_not_assigned? assigns state]
    cases found : state.symbols.find? name with
    | none => exact Symbol.lives_self _
    | some before =>
        have notLabel : statement ≠ .label name := fun isLabel => assigns (by rw [isLabel]; rfl)
        have notEquated : statement.equated? ≠ some name := fun defines =>
          assigns (assigned?_of_equated? defines)
        rw [find?_execute notLabel notEquated found]
        exact Symbol.lives_self (some before)

/-- The statements of a line in the life of a symbol.  The label that stands
before an equation is in the table when the equation is carried out. -/
theorem lives_readAll (set : InstructionSet) {label : Option String} (tokens : List Token)
    {name : String} {state : State}
    (ready : label = some name → (state.symbols.find? name).isSome = true) :
    Symbol.Lives (firstValue? name state (readAll set label tokens))
      (redefinitions name (executeAll state (readAll set label tokens)).events)
      ((executeAll state (readAll set label tokens)).state.symbols.find? name) := by
  fun_induction readAll set label tokens generalizing state
  case case1 label => exact Symbol.lives_self _
  case case2 label token rest statement ih =>
      have step : Symbol.Lives _ (redefinitions name (statement.execute state).events)
          ((statement.execute state).state.symbols.find? name) :=
        lives_execute fun defines => ready (label_eq_of_equated?_read defines)
      have readyNext : statement.label?.or label = some name →
          ((statement.execute state).state.symbols.find? name).isSome = true := by
        intro nearest
        rcases Option.or_eq_some_iff.mp nearest with isLabel | ⟨_, before⟩
        · exact isSome_find?_of_label_mem
            (List.mem_singleton.mpr (label?_eq_some_iff.mp isLabel).symm) state
        · exact isSome_find?_executeAll (ready before) [statement]
      have whole := step.append (ih readyNext) (find?_or_firstValue? name _ _)
      rw [Option.or_assoc, find?_or_firstValue?, ← redefinitions_append] at whole
      exact whole

end Statement

/-! ## The events of a line -/

namespace State

/-- The events of a line: those of its statements, its diagnostics, and its
counter. -/
theorem events_step (set : InstructionSet) (state : State) (number : Nat) (source : String) :
    (state.step set number source).events =
      (Statement.executeAll state (Statement.ofLine set source)).events ++
        (state.step set number source).line.diagnostics.map .diagnosed ++
        [.lineDone (state.step set number source).line.number
          (state.step set number source).line.counter] :=
  rfl

theorem isLineDone_of_mem_step {set : InstructionSet} {state : State} {number : Nat}
    {source : String} {event : Event}
    (member : event ∈ (Statement.executeAll state (Statement.ofLine set source)).events ++
      (state.step set number source).line.diagnostics.map .diagnosed) :
    event.isLineDone = false := by
  rcases List.mem_append.mp member with stated | diagnosed
  · exact Event.isLineDone_of_part (Statement.part_of_mem_executeAll stated)
  · rcases List.mem_map.mp diagnosed with ⟨diagnostic, _, isEvent⟩
    rw [← isEvent]
    rfl

theorem lineEnds_step (set : InstructionSet) (state : State) (number : Nat) (source : String) :
    (state.step set number source).events.filter Event.isLineDone =
      [.lineDone (state.step set number source).line.number
        (state.step set number source).line.counter] := by
  have others : ((Statement.executeAll state (Statement.ofLine set source)).events ++
      (state.step set number source).line.diagnostics.map Event.diagnosed).filter Event.isLineDone =
        [] := by
    apply List.filter_eq_nil_iff.mpr
    intro event member
    rw [isLineDone_of_mem_step member]
    exact Bool.false_ne_true
  rw [events_step, List.filter_append, others]
  rfl

theorem warnings_step (set : InstructionSet) (state : State) (number : Nat) (source : String) :
    ((state.step set number source).events.filter fun event => event.level = .warn) =
      (state.step set number source).line.diagnostics.map .diagnosed := by
  have silent : ((Statement.executeAll state (Statement.ofLine set source)).events.filter
      fun event => event.level = .warn) = [] := by
    apply List.filter_eq_nil_iff.mpr
    intro event member
    rw [decide_eq_true_eq]
    exact Event.level_of_part (Statement.part_of_mem_executeAll member)
  have spoken : ((state.step set number source).line.diagnostics.map Event.diagnosed).filter
      (fun event => event.level = .warn) =
        (state.step set number source).line.diagnostics.map .diagnosed := by
    apply List.filter_eq_self.mpr
    intro event member
    rcases List.mem_map.mp member with ⟨diagnostic, _, isEvent⟩
    rw [← isEvent]
    rfl
  rw [events_step, List.filter_append, List.filter_append, silent, spoken]
  exact List.append_nil _

theorem redefinitions_step (set : InstructionSet) (state : State) (number : Nat)
    (source name : String) :
    redefinitions name (state.step set number source).events =
      redefinitions name (Statement.executeAll state (Statement.ofLine set source)).events := by
  have silent : redefinitions name
      ((state.step set number source).line.diagnostics.map Event.diagnosed) = [] := by
    apply redefinitions_eq_nil
    intro event member
    rcases List.mem_map.mp member with ⟨diagnostic, _, isEvent⟩
    rw [← isEvent]
    exact Log.Part.noConfusion
  rw [events_step, redefinitions_append, redefinitions_append, silent, List.append_nil]
  exact List.append_nil _

/-- What every line gives, every step of a run has. -/
theorem forall_steps {set : InstructionSet} (Holds : Step → Prop)
    (each : ∀ state number source, Holds (step set state number source)) (state : State)
    (number : Nat) (lines : List String) : ∀ step ∈ state.steps set number lines, Holds step := by
  induction lines generalizing state number with
  | nil => exact List.forall_mem_nil _
  | cons source rest ih => exact List.forall_mem_cons.mpr ⟨each state number source, ih _ _⟩

theorem redefinitions_steps (set : InstructionSet) (state : State) (number : Nat)
    (lines : List String) (name : String) :
    redefinitions name ((state.steps set number lines).flatMap Step.events) =
      redefinitions name
        (Statement.executeAll state (lines.flatMap (Statement.ofLine set))).events := by
  induction lines generalizing state number with
  | nil => rfl
  | cons source rest ih =>
      simp only [steps, List.flatMap_cons]
      rw [redefinitions_append, redefinitions_step, ih, Statement.executeAll_append,
        redefinitions_append]
      rfl

/-- A program in the life of a symbol. -/
theorem lives_lines (set : InstructionSet) (state : State) (lines : List String) (name : String) :
    Symbol.Lives (Statement.firstValue? name state (lines.flatMap (Statement.ofLine set)))
      (redefinitions name
        (Statement.executeAll state (lines.flatMap (Statement.ofLine set))).events)
      ((Statement.executeAll state (lines.flatMap (Statement.ofLine set))).state.symbols.find?
        name) := by
  induction lines generalizing state with
  | nil => exact Symbol.lives_self _
  | cons source rest ih =>
      have line : Symbol.Lives _
          (redefinitions name (Statement.executeAll state (Statement.ofLine set source)).events)
            _ :=
        Statement.lives_readAll set (Token.scan source) (fun labelled => nomatch labelled)
      have whole :=
        line.append (ih (Statement.executeAll state (Statement.ofLine set source)).state)
        (Statement.find?_or_firstValue? name _ _)
      rw [List.flatMap_cons, Statement.firstValue?_append, Statement.executeAll_append,
        redefinitions_append]
      exact whole

end State

/-! ## The events of a program -/

/-- What happened in a program, up to the report that the pass is complete. -/
def happenings (set : InstructionSet) (lines : List String) : List Event :=
  (transcribe set lines).events.dropLast

theorem lines_assemble (set : InstructionSet) (lines : List String) :
    (assemble set lines).lines = (({} : State).steps set 1 lines).map Step.line :=
  rfl

theorem happenings_eq (set : InstructionSet) (lines : List String) :
    happenings set lines = (({} : State).steps set 1 lines).flatMap Step.events :=
  List.dropLast_concat

theorem events_transcribe (set : InstructionSet) (lines : List String) :
    (transcribe set lines).events = happenings set lines ++
      [.passDone (assemble set lines).lines.length (assemble set lines).symbols.size] := by
  rw [happenings_eq, lines_assemble, List.length_map]
  rfl

/-- What happens on one more line comes after what happened before. -/
theorem happenings_append_line (set : InstructionSet) (lines : List String) (source : String) :
    happenings set (lines ++ [source]) = happenings set lines ++
      ((State.reached set lines).step set (1 + lines.length) source).events := by
  rw [happenings_eq, happenings_eq, State.steps_append, List.flatMap_append, State.afterSteps_steps]
  exact congrArg _ (List.append_nil _)

theorem happenings_take_grows (set : InstructionSet) (lines : List String) (count : Nat) :
    happenings set (lines.take count) <+: happenings set lines := by
  have whole := State.steps_append set {} 1 (lines.take count) (lines.drop count)
  rw [List.take_append_drop] at whole
  rw [happenings_eq, happenings_eq, whole, List.flatMap_append]
  exact List.prefix_append _ _

/-- The events up to the end of a line are those up to the line, some that are not
the end of a line, and the end of the line. -/
theorem happenings_take_succ {set : InstructionSet} {lines : List String} {place : Nat}
    {line : AssembledLine} (isLine : (assemble set lines).lines[place]? = some line) :
    ∃ others, happenings set (lines.take (place + 1)) =
        happenings set (lines.take place) ++ (others ++ [.lineDone line.number line.counter]) ∧
      ∀ event ∈ others, event.isLineDone = false := by
  rw [getElem?_lines_assemble] at isLine
  rcases Option.map_eq_some_iff.mp isLine with ⟨source, isSource, same⟩
  subst same
  have before : (lines.take place).length = place :=
    List.length_take_of_le (Nat.le_of_lt (List.getElem?_eq_some_iff.mp isSource).1)
  have more := happenings_append_line set (lines.take place) source
  rw [before, State.events_step] at more
  rw [List.take_add_one, isSource]
  exact ⟨_, more, fun event member => State.isLineDone_of_mem_step member⟩

theorem number_of_line {set : InstructionSet} {lines : List String} {place : Nat}
    {line : AssembledLine} (isLine : (assemble set lines).lines[place]? = some line) :
    line.number = place + 1 := by
  rw [getElem?_lines_assemble] at isLine
  rcases Option.map_eq_some_iff.mp isLine with ⟨source, _, same⟩
  rw [← same]
  exact Nat.add_comm 1 place

/-- Events that are picked from a program are those that are picked from its lines,
if the last event of all is not picked. -/
theorem filter_events_transcribe {set : InstructionSet} {picks : Event → Bool}
    (picked : AssembledLine → List Event)
    (each : ∀ state number source, (State.step set state number source).events.filter picks =
      picked (State.step set state number source).line)
    (notLast : ∀ count size, picks (.passDone count size) = false) (lines : List String) :
    (transcribe set lines).events.filter picks = (assemble set lines).lines.flatMap picked := by
  have steps :=
    State.forall_steps (fun step => step.events.filter picks = picked step.line) each {} 1 lines
  have before : (happenings set lines).filter picks =
      (assemble set lines).lines.flatMap picked := by
    rw [happenings_eq, List.filter_flatMap, List.flatMap_congr steps, lines_assemble,
      List.flatMap_map]
  rw [events_transcribe, List.filter_append, before, List.filter_cons_of_neg (by simp [notLast]),
    List.filter_nil, List.append_nil]

theorem warnings_transcribe (set : InstructionSet) (lines : List String) :
    ((transcribe set lines).events.filter fun event => event.level = .warn) =
      (assemble set lines).diagnostics.map .diagnosed := by
  rw [filter_events_transcribe (fun line => line.diagnostics.map .diagnosed)
    (State.warnings_step set)
    (fun _ _ => rfl), Report.diagnostics, List.map_flatMap]

theorem lineEnds_transcribe (set : InstructionSet) (lines : List String) :
    (transcribe set lines).events.filter Event.isLineDone =
      (assemble set lines).lines.map fun line => .lineDone line.number line.counter := by
  rw [filter_events_transcribe (fun line => [.lineDone line.number line.counter])
    (State.lineEnds_step set)
    (fun _ _ => rfl), ← List.map_eq_flatMap]

theorem lives_transcribe (set : InstructionSet) (lines : List String) (name : String) :
    Symbol.Lives (Statement.firstValue? name {} (lines.flatMap (Statement.ofLine set)))
      (redefinitions name (transcribe set lines).events)
      ((assemble set lines).symbols.find? name) := by
  have changes : redefinitions name (transcribe set lines).events =
      redefinitions name
        (Statement.executeAll {} (lines.flatMap (Statement.ofLine set))).events := by
    rw [events_transcribe, redefinitions_append, happenings_eq, State.redefinitions_steps]
    exact List.append_nil _
  rw [changes, symbols_assemble, State.reached, State.run_eq_executeAll]
  exact State.lives_lines set {} lines name

/-- **The events of a pass are faithful.**  The warnings are the diagnostics of the
report.  Every line has one event for its end, which says its location counter and
comes after everything else on the line and before everything on the next one.  The
last event of all counts the lines and the symbols.  And the reported changes of a
symbol lead from the value that it came into the table with to the one that it has
in the report. -/
theorem events_tell_run (set : InstructionSet) (lines : List String) :
    (((transcribe set lines).events.filter fun event => event.level = .warn).map Event.message =
      (assemble set lines).diagnostics.map Diagnostic.text) ∧
    (((transcribe set lines).events.filter Event.isLineDone).map fun event =>
      (event.level, event.message)) =
      ((assemble set lines).lines.map fun line => (.trace,
        "line " ++ line.number.repr ++ ": location counter is " ++ line.counter.text)) ∧
    (∀ place line, (assemble set lines).lines[place]? = some line → line.number = place + 1 ∧
      ∃ others, happenings set (lines.take (place + 1)) =
          happenings set (lines.take place) ++ (others ++ [.lineDone line.number line.counter]) ∧
        (∀ event ∈ others, event.isLineDone = false) ∧
        happenings set (lines.take (place + 1)) <+: happenings set lines) ∧
    (∃ last, (transcribe set lines).events = happenings set lines ++ [last] ∧ last.level = .debug ∧
      last.message = "pass 1 complete: " ++ lines.length.repr ++ " lines, " ++
        (assemble set lines).symbols.size.repr ++ " symbols") ∧
    ∀ name,
      (((transcribe set lines).events.filter fun event => (event.redefinition? name).isSome).map
          fun event => (event.level, event.message)) =
        ((redefinitions name (transcribe set lines).events).map fun change => (.trace,
          "symbol " ++ name ++ " redefined: " ++ change.1.text ++ " -> " ++ change.2.text)) ∧
      Symbol.Lives (Statement.firstValue? name {} (lines.flatMap (Statement.ofLine set)))
        (redefinitions name (transcribe set lines).events)
        ((assemble set lines).symbols.find? name) := by
  refine ⟨?_, ?_, ?_, ?_, ?_⟩
  · rw [warnings_transcribe, List.map_map]
    rfl
  · rw [lineEnds_transcribe, List.map_map]
    rfl
  · intro place line isLine
    rcases happenings_take_succ isLine with ⟨others, upTo, apart⟩
    exact ⟨number_of_line isLine, others, upTo, apart, happenings_take_grows set lines (place + 1)⟩
  · refine ⟨_, events_transcribe set lines, rfl, ?_⟩
    rw [length_lines_assemble]
    rfl
  · exact fun name => ⟨messages_redefinitions name _, lives_transcribe set lines name⟩

end FirstPass
