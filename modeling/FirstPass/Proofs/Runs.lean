import FirstPass.Assembly
import FirstPass.Proofs.Effects

namespace FirstPass

/-!
Runs of the first pass.

A run goes from statement to statement and from line to line.  Here are the
two inductions over it, and the two ways to look at a report from inside the
run: a line of the report is the execution of its source line from the state
that was reached before it, and a record of a line was handed on by one
statement at one moment.
-/

namespace Statement

/-- What every statement of a list preserves, the list preserves. -/
theorem executeAll_induction (Holds : State → Prop) {statements : List Statement}
    (step : ∀ statement ∈ statements, ∀ state, Holds state → Holds (statement.execute state).state)
    {state : State} (holds : Holds state) : Holds (executeAll state statements).state := by
  induction statements generalizing state with
  | nil => exact holds
  | cons statement rest ih =>
      have first := step statement List.mem_cons_self state holds
      exact ih (fun other member => step other (List.mem_cons_of_mem statement member)) first

theorem sound_executeAll (statements : List Statement) {state : State}
    (sound : state.symbols.Sound) :
    (executeAll state statements).state.symbols.Sound :=
  executeAll_induction (fun state => state.symbols.Sound)
    (fun statement _ _ before => statement.sound_execute before) sound

theorem order_grows_executeAll (statements : List Statement) (state : State) :
    state.symbols.order <+: (executeAll state statements).state.symbols.order :=
  executeAll_induction (fun later => state.symbols.order <+: later.symbols.order)
    (fun statement _ middle before => before.trans (statement.order_grows_execute middle))
    (List.prefix_refl _)

theorem label_mem_records_executeAll {statements : List Statement} {state : State} {name : String} :
    .label name ∈ (executeAll state statements).records ↔ .label name ∈ statements := by
  induction statements generalizing state with
  | nil => simp [executeAll]
  | cons statement rest ih =>
      simp only [executeAll, List.mem_append, List.mem_cons]
      rw [label_mem_records_execute, ih, eq_comm]

/-- A record of a list of statements was handed on by one of them.  The
records before it are those of the statements before, and then those that the
same statement handed on first. -/
theorem exists_statement_of_record {statements : List Statement} {state : State}
    {front back : List Record} {record : Record}
    (split : (executeAll state statements).records = front ++ record :: back) :
    ∃ earlier statement later inner outer,
      statements = earlier ++ statement :: later ∧
      (statement.execute (executeAll state earlier).state).records = inner ++ record :: outer ∧
      front = (executeAll state earlier).records ++ inner ∧
      back = outer ++
        (executeAll (statement.execute (executeAll state earlier).state).state later).records := by
  induction statements generalizing state front with
  | nil => simp [executeAll] at split
  | cons first rest ih =>
      simp only [executeAll] at split
      -- Either the first statement handed the record on, or the record comes after all of its own.
      have located : (∃ middle, front = (first.execute state).records ++ middle ∧
            (executeAll (first.execute state).state rest).records = middle ++ record :: back) ∨
          ∃ middle, (first.execute state).records = front ++ record :: middle ∧
            back = middle ++ (executeAll (first.execute state).state rest).records := by
        rcases List.append_eq_append_iff.mp split with
          ⟨middle, isFront, isRest⟩ | ⟨middle, isFirst, isRest⟩
        · exact Or.inl ⟨middle, isFront, isRest⟩
        · cases middle with
          | nil => exact Or.inl ⟨[], by rw [isFirst, List.append_nil, List.append_nil], isRest.symm⟩
          | cons other middle =>
              rcases List.cons.inj isRest with ⟨same, isBack⟩
              exact Or.inr ⟨middle, by rw [isFirst, same], isBack⟩
      rcases located with ⟨middle, isFront, isRest⟩ | ⟨middle, isFirst, isBack⟩
      · rcases ih isRest with
          ⟨earlier, statement, later, inner, outer, isList, isStatement, isInner, isBack⟩
        refine ⟨first :: earlier, statement, later, inner, outer, ?_, isStatement, ?_, isBack⟩
        · rw [isList, List.cons_append]
        · rw [isFront, isInner, executeAll, List.append_assoc]
      · exact ⟨[], first, rest, front, middle, rfl, isFirst, rfl, isBack⟩

end Statement

namespace State

/-- The state after some lines.  Their numbers do not matter. -/
def run (set : InstructionSet) (state : State) (lines : List String) : State :=
  lines.foldl (fun state source => (Statement.executeAll state (Statement.ofLine set source)).state)
    state

/-- The state that the first pass reaches after some lines. -/
def reached (set : InstructionSet) (lines : List String) : State :=
  run set {} lines

theorem run_append (set : InstructionSet) (state : State) (first second : List String) :
    run set state (first ++ second) = run set (run set state first) second :=
  List.foldl_append

/-- A run carries out the statements of all lines, one after the other. -/
theorem run_eq_executeAll (set : InstructionSet) (state : State) (lines : List String) :
    run set state lines =
      (Statement.executeAll state (lines.flatMap (Statement.ofLine set))).state := by
  induction lines generalizing state with
  | nil => rfl
  | cons source rest ih =>
      rw [List.flatMap_cons, Statement.executeAll_append]
      exact ih _

/-- What every line preserves, every run preserves. -/
theorem run_induction (Holds : State → Prop) {set : InstructionSet} {lines : List String}
    (step : ∀ source ∈ lines, ∀ state, Holds state →
      Holds (Statement.executeAll state (Statement.ofLine set source)).state)
    {state : State} (holds : Holds state) : Holds (run set state lines) := by
  induction lines generalizing state with
  | nil => exact holds
  | cons source rest ih =>
      have first := step source List.mem_cons_self state holds
      exact ih (fun other member => step other (List.mem_cons_of_mem source member)) first

theorem sound_run (set : InstructionSet) (lines : List String) {state : State}
    (sound : state.symbols.Sound) : (run set state lines).symbols.Sound :=
  run_induction (fun state => state.symbols.Sound)
    (fun source _ _ before => Statement.sound_executeAll (Statement.ofLine set source) before) sound

theorem sound_reached (set : InstructionSet) (lines : List String) :
    (reached set lines).symbols.Sound :=
  sound_run set lines SymbolTable.sound_empty

/-- No line moves a symbol or takes one away. -/
theorem order_grows_run (set : InstructionSet) (lines : List String) (state : State) :
    state.symbols.order <+: (run set state lines).symbols.order :=
  run_induction (fun later => state.symbols.order <+: later.symbols.order)
    (fun source _ middle before =>
      before.trans (Statement.order_grows_executeAll (Statement.ofLine set source) middle))
    (List.prefix_refl _)

theorem afterSteps_steps (set : InstructionSet) (state : State) (number : Nat)
    (lines : List String) :
    state.afterSteps (state.steps set number lines) = run set state lines := by
  induction lines generalizing state number with
  | nil => rfl
  | cons source rest ih => exact ih _ (number + 1)

theorem getElem?_steps (set : InstructionSet) (state : State) (number : Nat) (lines : List String)
    (place : Nat) :
    (state.steps set number lines)[place]? =
      lines[place]?.map fun source =>
        (run set state (lines.take place)).step set (number + place) source := by
  induction lines generalizing state number place with
  | nil => rfl
  | cons source rest ih =>
      cases place with
      | zero => rfl
      | succ place =>
          have next := ih (state.step set number source).state (number + 1) place
          rw [Nat.add_assoc, Nat.add_comm 1 place] at next
          exact next

theorem drop_steps (set : InstructionSet) (state : State) (number : Nat) (lines : List String)
    (count : Nat) :
    (state.steps set number lines).drop count =
      (run set state (lines.take count)).steps set (number + count) (lines.drop count) := by
  induction lines generalizing state number count with
  | nil => simp [steps]
  | cons source rest ih =>
      cases count with
      | zero => rfl
      | succ count =>
          have next := ih (state.step set number source).state (number + 1) count
          rw [Nat.add_assoc, Nat.add_comm 1 count] at next
          exact next

theorem reached_take_succ {set : InstructionSet} {lines : List String} {place : Nat}
    {source : String} (here : lines[place]? = some source) :
    reached set (lines.take (place + 1)) =
      (Statement.executeAll (reached set (lines.take place))
        (Statement.ofLine set source)).state := by
  rw [List.take_add_one, here]
  exact run_append set {} (lines.take place) [source]

/-- The run up to a line, the line itself, and the run after it. -/
theorem reached_eq_run_drop {set : InstructionSet} {lines : List String} {place : Nat}
    {source : String} (here : lines[place]? = some source) :
    reached set lines = run set
      (Statement.executeAll (reached set (lines.take place)) (Statement.ofLine set source)).state
      (lines.drop (place + 1)) := by
  rw [← reached_take_succ here]
  unfold reached
  rw [← run_append, List.take_append_drop]

/-- The same from the moment of one statement of the line. -/
theorem reached_eq_run_of_statement {set : InstructionSet} {lines : List String} {place : Nat}
    {source : String} {earlier later : List Statement} {statement : Statement}
    (here : lines[place]? = some source)
    (split : Statement.ofLine set source = earlier ++ statement :: later) :
    reached set lines = run set
      (Statement.executeAll (statement.execute
        (Statement.executeAll (reached set (lines.take place)) earlier).state).state later).state
      (lines.drop (place + 1)) := by
  rw [reached_eq_run_drop here, split, Statement.executeAll_append]
  rfl

end State

theorem symbols_assemble (set : InstructionSet) (lines : List String) :
    (assemble set lines).symbols = (State.reached set lines).symbols :=
  congrArg State.symbols (State.afterSteps_steps set {} 1 lines)

theorem counter_assemble (set : InstructionSet) (lines : List String) :
    (assemble set lines).counter = (State.reached set lines).counter :=
  congrArg State.counter (State.afterSteps_steps set {} 1 lines)

theorem sound_assemble (set : InstructionSet) (lines : List String) :
    (assemble set lines).symbols.Sound := by
  rw [symbols_assemble]
  exact State.sound_reached set lines

/-- A line of a report comes from its source line and the state reached before
it. -/
theorem getElem?_lines_assemble (set : InstructionSet) (lines : List String) (place : Nat) :
    (assemble set lines).lines[place]? = lines[place]?.map fun source =>
      ((State.reached set (lines.take place)).step set (1 + place) source).line := by
  unfold assemble transcribe
  rw [List.getElem?_map, State.getElem?_steps, Option.map_map]
  rfl

/-- The location counter of a line is that of the state reached after it. -/
theorem counter_of_line {set : InstructionSet} {lines : List String} {place : Nat}
    {line : AssembledLine} (isLine : (assemble set lines).lines[place]? = some line) :
    line.counter = (State.reached set (lines.take (place + 1))).counter := by
  rw [getElem?_lines_assemble] at isLine
  rcases Option.map_eq_some_iff.mp isLine with ⟨source, isSource, same⟩
  rw [← same, State.reached_take_succ isSource]
  rfl

/-- The location counter before the line at a place: the one after the line
before it. -/
def Report.counterBefore (report : Report) : Nat → LocationCounter
  | 0 => .unstarted
  | place + 1 => (report.lines[place]?.map AssembledLine.counter).getD .unstarted

theorem counterBefore_assemble (set : InstructionSet) (lines : List String) {place : Nat}
    (bound : place ≤ lines.length) :
    (assemble set lines).counterBefore place = (State.reached set (lines.take place)).counter := by
  cases place with
  | zero => rfl
  | succ place =>
      have here := List.getElem?_eq_getElem bound
      rw [Report.counterBefore, getElem?_lines_assemble, State.reached_take_succ here, here]
      rfl

theorem drop_lines_assemble (set : InstructionSet) (lines : List String) (count : Nat) :
    (assemble set lines).lines.drop count =
      ((State.reached set (lines.take count)).steps set (1 + count) (lines.drop count)).map
        Step.line := by
  unfold assemble transcribe
  rw [← List.map_drop, State.drop_steps]
  rfl

end FirstPass
