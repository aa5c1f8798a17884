import FirstPass.Proofs.Runs

namespace FirstPass

/-!
Labels point at what they label.

A label gets the value of the location counter, and the next instruction that
is placed gets its address from the same counter, at a later moment and by
other means.  In between the counter stands still, because whatever moves it
hands on a record of its own.  Afterwards the value of the label can change
only by another label of that name, or by an equation on the line of such a
label.
-/

/-- Whether a record is that of a mnemonic. -/
def Record.isInstruction : Record → Bool
  | .instruction _ _ _ => true
  | _ => false

/-! ## The counter between a label and an instruction -/

/-- A mnemonic that shows no record of its own has no effect on the state. -/
theorem Operation.state_execute_of_no_instruction {mnemonic : String} {descriptor : Descriptor}
    {operation : Operation} {state : State}
    (silent : (operation.execute mnemonic descriptor state).records.find? Record.isInstruction =
      none) : (operation.execute mnemonic descriptor state).state = state := by
  cases operation with
  | start address =>
      rw [execute, records_executeStart] at silent
      cases silent
  | finish => cases silent
  | origin target =>
      rw [execute, records_executeOrigin] at silent
      cases silent
  | equate label meaning =>
      rw [execute, records_executeEquate] at silent
      cases silent
  | reserve count =>
      rw [execute] at silent ⊢
      rcases executeReserve_cases mnemonic descriptor count state with
        ⟨_, _, _, _, done⟩ | ⟨_, refused⟩
      · rw [done] at silent
        cases silent
      · rw [refused]
  | word =>
      rw [execute] at silent ⊢
      rcases executeWord_cases mnemonic descriptor state with ⟨_, _, _, _, done⟩ | ⟨_, refused⟩
      · rw [done] at silent
        cases silent
      · rw [refused]
  | malformed operands fault => rfl

namespace Statement

theorem counter_execute_of_no_instruction {statement : Statement} {state : State}
    (silent : (statement.execute state).records.find? Record.isInstruction = none) :
    (statement.execute state).state.counter = state.counter := by
  cases statement with
  | instruction mnemonic descriptor operation =>
      rw [execute, Operation.state_execute_of_no_instruction silent]
  | label name => exact State.counter_bind state name _
  | reference name => rfl
  | register word code => rfl
  | condition word code => rfl
  | constant digits => rfl

/-- If the next mnemonic that a list of statements shows is placed, then at the
address that the counter has before the list. -/
theorem counter_of_next_placed {statements : List Statement} {state : State} {address : Address}
    {category : Category} {opcode : Opcode}
    (placed : (executeAll state statements).records.find? Record.isInstruction =
      some (.instruction (some address) category opcode)) : state.counter = .running address := by
  induction statements generalizing state with
  | nil => cases placed
  | cons statement rest ih =>
      simp only [executeAll, List.find?_append] at placed
      cases first : (statement.execute state).records.find? Record.isInstruction with
      | none =>
          rw [first, Option.none_or] at placed
          rw [← counter_execute_of_no_instruction first, ih placed]
      | some record =>
          rw [first, Option.some_or] at placed
          exact counter_of_placed (List.mem_of_find?_eq_some (first.trans placed))

/-! ## The value of a label after its definition -/

theorem find?_executeAll {statements : List Statement} {state : State} {name : String}
    {value : Symbol.Value} (notLabel : .label name ∉ statements)
    (notEquated : ∀ statement ∈ statements, statement.equated? ≠ some name)
    (found : state.symbols.find? name = some value) :
    (executeAll state statements).state.symbols.find? name = some value := by
  refine executeAll_induction (fun state => state.symbols.find? name = some value) ?_ found
  intro statement member state before
  have different : statement ≠ .label name := fun same => notLabel (same ▸ member)
  exact find?_execute different (notEquated statement member) before

/-- A line without a label of that name does not change the value of a symbol:
an equation would need the label before it. -/
theorem find?_executeAll_ofLine {set : InstructionSet} {source : String} {state : State}
    {name : String} {value : Symbol.Value}
    (unlabelled : .label name ∉ (executeAll state (ofLine set source)).records)
    (found : state.symbols.find? name = some value) :
    (executeAll state (ofLine set source)).state.symbols.find? name = some value := by
  rw [label_mem_records_executeAll] at unlabelled
  refine find?_executeAll unlabelled ?_ found
  intro statement member defines
  rcases List.append_of_mem member with ⟨earlier, later, split⟩
  have labelled := label_before_equation_ofLine split defines
  exact unlabelled (split ▸ List.mem_append_left _ labelled)

end Statement

theorem State.find?_run {set : InstructionSet} {lines : List String} {state : State} {number : Nat}
    {name : String} {value : Symbol.Value}
    (unlabelled : ∀ line ∈ (state.steps set number lines).map Step.line, .label name ∉ line.records)
    (found : state.symbols.find? name = some value) :
    (run set state lines).symbols.find? name = some value := by
  induction lines generalizing state number with
  | nil => exact found
  | cons source rest ih =>
      simp only [steps, List.map_cons, List.forall_mem_cons] at unlabelled
      exact ih unlabelled.2 (Statement.find?_executeAll_ofLine unlabelled.1 found)

/-- The moment of a label: its statement, and the rest of the line. -/
theorem Statement.exists_label_of_record {statements : List Statement} {state : State}
    {front later : List Record} {name : String}
    (split : (executeAll state statements).records = front ++ .label name :: later) :
    ∃ earlier rest, statements = earlier ++ .label name :: rest ∧
      front = (executeAll state earlier).records ∧
      later =
        (executeAll ((Statement.label name).execute (executeAll state earlier).state).state
          rest).records := by
  rcases exists_statement_of_record split with
    ⟨earlier, statement, rest, inner, outer, isList, handsOn, isFront, isLater⟩
  have isLabel : statement = .label name := by
    apply label_mem_records_execute.mp
    rw [handsOn]
    exact List.mem_append_right inner List.mem_cons_self
  subst isLabel
  -- A label hands on its own record and nothing else.
  have alone : [Record.label name] = inner ++ .label name :: outer := handsOn
  have lengths := congrArg List.length alone
  simp only [List.length_cons, List.length_nil, List.length_append] at lengths
  have noInner : inner = [] := List.length_eq_zero_iff.mp (by omega)
  have noOuter : outer = [] := List.length_eq_zero_iff.mp (by omega)
  subst noInner noOuter
  exact ⟨earlier, rest, isList, by rw [isFront, List.append_nil], isLater⟩

/-- If the next instruction after a label on its line is placed, no equation
follows the label on the line, and no later label has the same name, then in
the end the symbol has the address of that instruction. -/
theorem find?_label_eq_placed (set : InstructionSet) (lines : List String) {place : Nat}
    {source : String} {line : AssembledLine} {front later : List Record} {name : String}
    {address : Address} {category : Category} {opcode : Opcode}
    (isSource : lines[place]? = some source)
    (isLine : (assemble set lines).lines[place]? = some line)
    (split : line.records = front ++ .label name :: later)
    (placed : later.find? Record.isInstruction = some (.instruction (some address) category opcode))
    (noEquation : ∀ earlier rest, Statement.ofLine set source = earlier ++ .label name :: rest →
      (Statement.executeAll (State.reached set (lines.take place)) earlier).records = front →
      ∀ statement ∈ rest, statement.role? ≠ some .equate) (lastOnLine : .label name ∉ later)
    (lastInProgram : ∀ other ∈ (assemble set lines).lines.drop (place + 1),
      .label name ∉ other.records) :
    (assemble set lines).symbols.find? name = some (.address address) := by
  rw [getElem?_lines_assemble, isSource, Option.map_some, Option.some.injEq] at isLine
  subst isLine
  rcases Statement.exists_label_of_record split with ⟨earlier, rest, isList, isFront, isLater⟩
  let before := (Statement.executeAll (State.reached set (lines.take place)) earlier).state
  let labelled := ((Statement.label name).execute before).state
  have running : before.counter = .running address := by
    have next : labelled.counter = .running address :=
      Statement.counter_of_next_placed (isLater ▸ placed)
    rw [← next]
    exact (State.counter_bind before name _).symm
  have given : labelled.symbols.find? name = some (.address address) := by
    change (before.bind name (.ofPlace before.counter.value)).1.symbols.find? name = _
    rw [State.symbols_bind, SymbolTable.find?_assign, if_pos rfl, running]
    rfl
  have untouched : .label name ∉ rest := by
    intro member
    exact lastOnLine (isLater ▸ Statement.label_mem_records_executeAll.mpr member)
  have notEquated : ∀ statement ∈ rest, statement.equated? ≠ some name := by
    intro statement member defines
    have inLine : statement ∈ Statement.ofLine set source := by
      rw [isList]
      exact List.mem_append_right earlier (List.mem_cons_of_mem _ member)
    exact noEquation earlier rest isList isFront.symm statement member
      (Statement.role?_of_equated? inLine defines)
  have endOfLine := Statement.find?_executeAll untouched notEquated given
  rw [drop_lines_assemble, State.reached_take_succ isSource, isList, Statement.executeAll_append]
    at lastInProgram
  rw [symbols_assemble, State.reached_eq_run_of_statement isSource isList]
  exact State.find?_run lastInProgram endOfLine

/-- The label stands before a register, a constant and another label, and
later lines move the counter to it, equate to it and refer to it. -/
theorem find?_label_eq_placed_amid :
    (assemble .standard ["START 100", "L AREG 5 M MOVER AREG X", "ORIGIN L + 5", "Q EQU L",
      "M DS L"]).symbols.find? "L" =
      some (.address ⟨100, by decide⟩) := by
  have isLine : (assemble .standard
      ["START 100", "L AREG 5 M MOVER AREG X", "ORIGIN L + 5", "Q EQU L", "M DS L"]).lines[1]? =
      some ⟨2, [] ++ .label "L" :: [.register ⟨1⟩, .constant "5", .label "M",
        .instruction (some ⟨100, by decide⟩) .imperative ⟨4⟩, .register ⟨1⟩, .reference "X" 3], [],
        .running ⟨101, by decide⟩⟩ := by
    decide +kernel
  have plain : ∀ statement ∈ Statement.ofLine .standard "L AREG 5 M MOVER AREG X",
      statement.role? ≠ some .equate := by
    decide +kernel
  refine find?_label_eq_placed .standard _ rfl isLine rfl rfl ?_ (by decide) (by decide +kernel)
  intro earlier rest isList _ statement member
  exact plain statement (isList ▸ List.mem_append_right earlier (List.mem_cons_of_mem _ member))

end FirstPass
