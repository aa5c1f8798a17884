import FirstPass.Proofs.Labels

namespace FirstPass

/-!
The values of symbols.

A symbol is given a value by a label or by an equation, and by nothing else.
References, the terms of equations and the targets of moves only make a symbol
known, which leaves it unresolved, or read it.  So a symbol has the value that
it was given last.

An equation defines the label nearest before it on its line.  Therefore the
records tell which lines can have changed a symbol: those with a label of its
name.
-/

namespace SymbolTable

/-- The value of a symbol.  One that is not in the table is unresolved. -/
def value (table : SymbolTable) (name : String) : Symbol.Value :=
  (table.find? name).getD .unresolved

theorem value_of_find? {table : SymbolTable} {name : String} {value : Symbol.Value}
    (found : table.find? name = some value) : table.value name = value := by
  rw [SymbolTable.value, found, Option.getD_some]

theorem value_insertIfNew (table : SymbolTable) (name other : String) :
    (table.insertIfNew name .unresolved).2.value other = table.value other := by
  unfold value
  rw [find?_insertIfNew]
  split
  · rename_i same
    rw [same, Option.getD_some]
  · rfl

theorem value_assign (table : SymbolTable) (name : String) (given : Symbol.Value) (other : String) :
    (table.assign name given).2.value other =
      if other = name then given else table.value other := by
  unfold value
  rw [find?_assign]
  split <;> rfl

end SymbolTable

theorem State.value_mentionTerm (state : State) (term : Term) (name : String) :
    (state.mentionTerm term).symbols.value name = state.symbols.value name := by
  cases term with
  | number numeral => rfl
  | symbol other => exact state.symbols.value_insertIfNew other name

namespace Statement

/-! ## What gives a symbol a value -/

/-- The symbol that a statement gives a value: a label itself, or the label of
an equation. -/
def assigned? (statement : Statement) : Option String :=
  statement.label?.or statement.equated?

/-- A statement gives a symbol a value: a label the value of the location
counter, and an equation the value of its expression, or none if that
cannot be computed. -/
inductive Gives (state : State) : Statement → String → Symbol.Value → Prop
  | label (name : String) : Gives state (.label name) name (.ofPlace state.counter.value)
  | equation {mnemonic : String} {descriptor : Descriptor} {name : String} {meaning : Expression}
      {value : Symbol.Value} (evaluated : meaning.evaluate state.symbols = .ok value) :
      Gives state (.instruction mnemonic descriptor (.equate (some name) meaning)) name value
  | failure {mnemonic : String} {descriptor : Descriptor} {name : String} {meaning : Expression}
      {fault : ArithmeticFault} (failed : meaning.evaluate state.symbols = .error fault) :
      Gives state (.instruction mnemonic descriptor (.equate (some name) meaning)) name .unresolved

/-- Every statement leaves the value of a symbol alone that it does not
assign. -/
theorem value_execute {statement : Statement} {name : String}
    (other : statement.assigned? ≠ some name) (state : State) :
    (statement.execute state).state.symbols.value name = state.symbols.value name := by
  cases statement with
  | instruction mnemonic descriptor operation =>
      cases operation with
      | equate label meaning =>
          simp only [execute, Operation.execute]
          rcases Operation.executeEquate_cases descriptor label meaning state with
            ⟨_, unlabelled⟩ | ⟨defined, given, isLabel, bound⟩
          · rw [unlabelled, State.value_mentionTerm]
          · have different : name ≠ defined := fun same => other (same ▸ isLabel)
            rw [bound, State.symbols_bind, SymbolTable.value_assign, if_neg different,
              State.value_mentionTerm]
      | _ => rw [execute, Operation.symbols_execute _ _ (by simp [Operation.role?])]
  | label defined =>
      have different : name ≠ defined := fun same => other (same ▸ rfl)
      simp only [execute, State.symbols_bind]
      rw [SymbolTable.value_assign, if_neg different]
  | reference mentioned => exact state.symbols.value_insertIfNew mentioned name
  | register word code => rfl
  | condition word code => rfl
  | constant digits => rfl

/-- A statement that assigns a symbol gives it the value that it has
afterwards. -/
theorem gives_of_assigned? {statement : Statement} {name : String}
    (assigns : statement.assigned? = some name) (state : State) :
    statement.Gives state name ((statement.execute state).state.symbols.value name) := by
  cases statement with
  | instruction mnemonic descriptor operation =>
      cases operation with
      | equate label meaning =>
          have isLabel : label = some name := assigns
          subst isLabel
          simp only [execute, Operation.execute]
          rcases Operation.executeEquate_labelled descriptor name meaning state with
            ⟨value, evaluated, _, bound⟩ | ⟨fault, failed, _, bound⟩
          · rw [bound, State.symbols_bind, SymbolTable.value_assign, if_pos rfl]
            exact .equation evaluated
          · rw [bound, State.symbols_bind, SymbolTable.value_assign, if_pos rfl]
            exact .failure failed
      | _ => cases assigns
  | label defined =>
      have isName : defined = name := Option.some.inj assigns
      subst isName
      simp only [execute, State.symbols_bind]
      rw [SymbolTable.value_assign, if_pos rfl]
      exact .label defined
  | _ => cases assigns

theorem value_executeAll {statements : List Statement} {name : String}
    (others : ∀ statement ∈ statements, statement.assigned? ≠ some name) (state : State) :
    (executeAll state statements).state.symbols.value name = state.symbols.value name := by
  refine executeAll_induction
    (fun later => later.symbols.value name = state.symbols.value name) ?_ rfl
  intro statement member later same
  rw [value_execute (others statement member), same]

/-- The last write decides.  After a list of statements a symbol has the value
that the last one of them to assign it gave it, or else the value that it had
before. -/
theorem value_executeAll_cases (statements : List Statement) (state : State) (name : String) :
    ((∀ statement ∈ statements, statement.assigned? ≠ some name) ∧
      (executeAll state statements).state.symbols.value name = state.symbols.value name) ∨
    ∃ earlier statement later, statements = earlier ++ statement :: later ∧
      statement.Gives (executeAll state earlier).state name
        ((executeAll state statements).state.symbols.value name) ∧
      ∀ other ∈ later, other.assigned? ≠ some name := by
  induction statements generalizing state with
  | nil => exact Or.inl ⟨List.forall_mem_nil _, rfl⟩
  | cons first rest ih =>
      have whole : (executeAll state (first :: rest)).state =
          (executeAll (first.execute state).state rest).state := rfl
      rcases ih (first.execute state).state with
        ⟨others, same⟩ | ⟨earlier, statement, later, isRest, gives, others⟩
      · by_cases assigns : first.assigned? = some name
        · refine Or.inr ⟨[], first, rest, rfl, ?_, others⟩
          rw [whole, same]
          exact gives_of_assigned? assigns state
        · refine Or.inl ⟨List.forall_mem_cons.mpr ⟨assigns, others⟩, ?_⟩
          rw [whole, same, value_execute assigns]
      · exact Or.inr ⟨first :: earlier, statement, later, by rw [isRest, List.cons_append], gives,
          others⟩

/-! ## Labels and the lines that change a symbol -/

/-- A line that assigns a symbol has a label of its name. -/
theorem label_mem_ofLine {set : InstructionSet} {source : String} {statement : Statement}
    {name : String} (member : statement ∈ ofLine set source)
    (assigns : statement.assigned? = some name) : .label name ∈ ofLine set source := by
  rcases Option.or_eq_some_iff.mp assigns with isLabel | ⟨_, defines⟩
  · rw [← label?_eq_some_iff.mp isLabel]
    exact member
  · rcases List.append_of_mem member with ⟨earlier, later, split⟩
    rw [split]
    exact List.mem_append_left _ (label_before_equation_ofLine split defines)

theorem value_executeAll_ofLine {set : InstructionSet} {source : String} {state : State}
    {name : String} (unlabelled : .label name ∉ (executeAll state (ofLine set source)).records) :
    (executeAll state (ofLine set source)).state.symbols.value name = state.symbols.value name := by
  rw [label_mem_records_executeAll] at unlabelled
  apply value_executeAll
  intro statement member assigns
  exact unlabelled (label_mem_ofLine member assigns)

/-- A symbol that is in the table stays there. -/
theorem isSome_find?_executeAll {state : State} {name : String}
    (present : (state.symbols.find? name).isSome = true) (statements : List Statement) :
    ((executeAll state statements).state.symbols.find? name).isSome = true := by
  refine executeAll_induction (fun later => (later.symbols.find? name).isSome = true) ?_ present
  intro statement _ later before
  refine symbols_execute_of_admits
    (fun table => (table.find? name).isSome = true) ?_ statement before
  intro table admitted after admits known
  by_cases same : name = admitted
  · rw [same]
    exact admits.present
  · rw [admits.others name same]
    exact known

theorem isSome_find?_of_label_mem {statements : List Statement} {name : String}
    (member : .label name ∈ statements) (state : State) :
    ((executeAll state statements).state.symbols.find? name).isSome = true := by
  rcases List.append_of_mem member with ⟨earlier, later, split⟩
  rw [split, executeAll_append]
  refine isSome_find?_executeAll ?_ later
  simp only [execute, State.symbols_bind]
  exact (SymbolTable.admits_assign _ name _).present

end Statement

theorem State.value_run {set : InstructionSet} {lines : List String} {state : State} (number : Nat)
    {name : String}
    (unlabelled : ∀ line ∈ (state.steps set number lines).map Step.line,
      .label name ∉ line.records) :
    (run set state lines).symbols.value name = state.symbols.value name := by
  induction lines generalizing state number with
  | nil => rfl
  | cons source rest ih =>
      simp only [steps, List.map_cons, List.forall_mem_cons] at unlabelled
      have line := Statement.value_executeAll_ofLine unlabelled.1
      exact (ih (number + 1) unlabelled.2).trans line

/-- Where the values of symbols come from.  A line that changes the value of a
symbol has a label of its name, and a symbol that a line adds without a label
is unresolved.  So in the end a symbol without any label is unresolved, and any
other has the value that it had after the last line with a label of its
name. -/
theorem value_from_last_label (set : InstructionSet) (lines : List String) :
    (∀ number source,
      let before := State.reached set lines
      let step := before.step set number source
      (∀ name value, before.symbols.find? name = some value →
        step.state.symbols.find? name ≠ some value → .label name ∈ step.line.records) ∧
      ∀ name value, before.symbols.find? name = none → step.state.symbols.find? name = some value →
        .label name ∉ step.line.records → value = .unresolved) ∧
    (∀ name value, (assemble set lines).symbols.find? name = some value →
      (∀ line ∈ (assemble set lines).lines, .label name ∉ line.records) → value = .unresolved) ∧
    ∀ name place line, (assemble set lines).lines[place]? = some line → .label name ∈ line.records →
      (∀ other ∈ (assemble set lines).lines.drop (place + 1), .label name ∉ other.records) →
      ∃ value, (assemble set (lines.take (place + 1))).symbols.find? name = some value ∧
        (assemble set lines).symbols.find? name = some value := by
  refine ⟨?_, ?_, ?_⟩
  · intro number source before step
    refine ⟨?_, ?_⟩
    · intro name value found changed
      by_contra unlabelled
      exact changed (Statement.find?_executeAll_ofLine unlabelled found)
    · intro name value absent found unlabelled
      have same : step.state.symbols.value name = before.symbols.value name :=
        Statement.value_executeAll_ofLine unlabelled
      rw [SymbolTable.value_of_find? found, SymbolTable.value, absent] at same
      exact same
  · intro name value found unlabelled
    have same : (State.reached set lines).symbols.value name = .unresolved :=
      State.value_run 1 unlabelled
    rw [symbols_assemble] at found
    exact (SymbolTable.value_of_find? found).symm.trans same
  · intro name place line isLine labelled last
    rw [getElem?_lines_assemble] at isLine
    rcases Option.map_eq_some_iff.mp isLine with ⟨source, isSource, sameLine⟩
    subst sameLine
    have member := Statement.label_mem_records_executeAll.mp labelled
    have present :=
      Statement.isSome_find?_of_label_mem member (State.reached set (lines.take place))
    rcases Option.isSome_iff_exists.mp present with ⟨value, found⟩
    rw [← State.reached_take_succ isSource] at found
    rw [drop_lines_assemble] at last
    refine ⟨value, by rw [symbols_assemble, found], ?_⟩
    have kept := State.find?_run last found
    rw [symbols_assemble, State.reached_eq_run_drop isSource, ← State.reached_take_succ isSource]
    exact kept

/-- The label `L` is defined twice, `X` is used before it is equated, and `Y`
is only used. -/
theorem value_from_last_label_relabelled :
    .label "L" ∈ ((State.reached .standard ["START 100", "L READ X", "X EQU L"]).step .standard 4
      "L STOP").line.records ∧
    ((State.reached .standard ["START 100"]).step .standard 2 "L READ X").state.symbols.find? "X" =
      some .unresolved ∧
    (assemble .standard
      ["START 100", "L READ X", "X EQU L", "L STOP", "PRINT Y"]).symbols.find? "Y" =
      some .unresolved ∧
    ∃ value,
      (assemble .standard ["START 100", "L READ X", "X EQU L", "L STOP"]).symbols.find? "L" =
        some value ∧
      (assemble .standard
        ["START 100", "L READ X", "X EQU L", "L STOP", "PRINT Y"]).symbols.find? "L" =
        some value := by
  have whole :=
    value_from_last_label .standard ["START 100", "L READ X", "X EQU L", "L STOP", "PRINT Y"]
  refine ⟨?_, ?_, ?_, ?_⟩
  · exact ((value_from_last_label .standard ["START 100", "L READ X", "X EQU L"]).1 4 "L STOP").1
      "L"
      (.address ⟨100, by decide⟩) (by decide +kernel) (by decide +kernel)
  · have added :
        (((State.reached .standard ["START 100"]).step .standard 2 "L READ X").state.symbols.find?
          "X").isSome = true := by
      decide +kernel
    rcases Option.isSome_iff_exists.mp added with ⟨value, found⟩
    rw [found, ((value_from_last_label .standard ["START 100"]).1 2 "L READ X").2 "X" value
      (by decide +kernel) found (by decide +kernel)]
  · have present : ((assemble .standard
        ["START 100", "L READ X", "X EQU L", "L STOP", "PRINT Y"]).symbols.find? "Y").isSome =
        true := by
      decide +kernel
    rcases Option.isSome_iff_exists.mp present with ⟨value, found⟩
    rw [found, whole.2.1 "Y" value found (by decide +kernel)]
  · have isLine :
        (assemble .standard ["START 100", "L READ X", "X EQU L", "L STOP", "PRINT Y"]).lines[3]? =
          some ⟨4, [.label "L", .instruction (some ⟨101, by decide⟩) .imperative ⟨0⟩], [],
            .running ⟨102, by decide⟩⟩ := by
      decide +kernel
    exact whole.2.2 "L" 3 _ isLine List.mem_cons_self (by decide +kernel)

end FirstPass
