import FirstPass.Proofs.Values

namespace FirstPass

/-!
The phases of the location counter.

The counter is unstarted at first, then it runs, and then it has ended; it can
end without ever having run.  No statement takes it back to an earlier phase,
and once ended it stays as it is.  Because instructions are placed by a running
counter only, nothing is placed before the start or after the end.

Before the start, labels have no address to be given.  A symbol that has an
address all the same owes it to an equation.
-/

namespace LocationCounter

/-- What a counter can become: an unstarted one anything, a running one all but
unstarted, and an ended one nothing else. -/
def MayBecome : LocationCounter → LocationCounter → Prop
  | .unstarted, _ => True
  | .running _, after => after ≠ .unstarted
  | .ended last, after => after = .ended last

namespace MayBecome

theorem refl (counter : LocationCounter) : counter.MayBecome counter := by
  cases counter with
  | unstarted => trivial
  | running address => exact LocationCounter.noConfusion
  | ended last => rfl

theorem trans {first second third : LocationCounter} (before : first.MayBecome second)
    (after : second.MayBecome third) : first.MayBecome third := by
  cases first with
  | unstarted => trivial
  | running address =>
      cases second with
      | unstarted => exact absurd rfl before
      | running address => exact after
      | ended last =>
          have same : third = .ended last := after
          rw [same]
          exact LocationCounter.noConfusion
  | ended last =>
      have same : second = .ended last := before
      rw [same] at after
      exact after

theorem running {counter : LocationCounter} (notEnded : counter.isEnded = false)
    (address : Address) :
    counter.MayBecome (.running address) := by
  cases counter with
  | unstarted => trivial
  | running here => exact LocationCounter.noConfusion
  | ended last => cases notEnded

theorem ended (counter : LocationCounter) : counter.MayBecome (.ended counter.value) := by
  cases counter with
  | unstarted => trivial
  | running address => exact LocationCounter.noConfusion
  | ended last => rfl

/-- A counter is unstarted as long as it can still become so. -/
theorem eq_unstarted {counter : LocationCounter} (possible : counter.MayBecome .unstarted) :
    counter = .unstarted := by
  cases counter with
  | unstarted => rfl
  | running address => exact absurd rfl possible
  | ended last => cases possible

end MayBecome
end LocationCounter

/-! ## The counter along a run -/

namespace Statement

/-- One statement takes the counter to no earlier phase. -/
theorem mayBecome_execute (statement : Statement) (state : State) :
    state.counter.MayBecome (statement.execute state).state.counter := by
  cases statement with
  | instruction mnemonic descriptor operation =>
      rw [execute]
      rcases operation.counter_execute_cases mnemonic descriptor state with
        same | ⟨address, notEnded, _, moved⟩ | ⟨_, ended⟩
      · rw [same]
        exact .refl state.counter
      · rw [moved]
        exact .running notEnded address
      · rw [ended]
        exact .ended state.counter
  | label name =>
      simp only [execute, State.counter_bind]
      exact .refl state.counter
  | reference name => exact .refl state.counter
  | register word code => exact .refl state.counter
  | condition word code => exact .refl state.counter
  | constant digits => exact .refl state.counter

theorem mayBecome_executeAll (statements : List Statement) (state : State) :
    state.counter.MayBecome (executeAll state statements).state.counter :=
  executeAll_induction (fun later => state.counter.MayBecome later.counter)
    (fun statement _ middle before => before.trans (statement.mayBecome_execute middle))
    (.refl state.counter)

/-- Whatever statements place a record, the counter is running at some moment
among them. -/
theorem exists_running_of_placed {statements : List Statement} {state : State} {address : Address}
    {category : Category} {opcode : Opcode}
    (placed : .instruction (some address) category opcode ∈ (executeAll state statements).records) :
    ∃ earlier later, statements = earlier ++ later ∧
      (executeAll state earlier).state.counter = .running address := by
  rcases List.append_of_mem placed with ⟨front, back, split⟩
  rcases exists_statement_of_record split with
    ⟨earlier, statement, later, inner, outer, isList, handsOn, _, _⟩
  have member : .instruction (some address) category opcode ∈
      (statement.execute (executeAll state earlier).state).records := by
    rw [handsOn]
    exact List.mem_append_right inner List.mem_cons_self
  exact ⟨earlier, statement :: later, isList, counter_of_placed member⟩

end Statement

theorem State.mayBecome_run (set : InstructionSet) (lines : List String) (state : State) :
    state.counter.MayBecome (run set state lines).counter := by
  rw [run_eq_executeAll]
  exact Statement.mayBecome_executeAll _ state

theorem State.mayBecome_reached (set : InstructionSet) (lines : List String) {first second : Nat}
    (order : first ≤ second) :
    (reached set (lines.take first)).counter.MayBecome
      (reached set (lines.take second)).counter := by
  have shorter : (lines.take second).take first = lines.take first := by
    rw [List.take_take, Nat.min_eq_left order]
  have split : lines.take second = lines.take first ++ (lines.take second).drop first := by
    rw [← shorter, List.take_append_drop]
  rw [split]
  unfold reached
  rw [run_append]
  exact mayBecome_run set _ _

/-! ## After the end -/

/-- How a line comes out that is carried out after the end: the counter keeps
its last value, nothing is placed, every plain mnemonic is reported, and a
label that is not equated after it has the last value of the counter. -/
structure AssembledAfterEnd (set : InstructionSet) (last : Option Address) (before : State)
    (source : String) (line : AssembledLine) (symbols : SymbolTable) : Prop where
  counter : line.counter = .ended last
  unplaced : ∀ address category opcode, .instruction (some address) category opcode ∉ line.records
  reported : ∀ earlier mnemonic descriptor operation later,
    Statement.ofLine set source = earlier ++ .instruction mnemonic descriptor operation :: later →
    descriptor.role = .plain →
    let moment := Statement.executeAll before earlier
    line.faults = moment.faults ++ .afterEnd mnemonic ::
      (Statement.executeAll moment.state later).faults
  labelled : ∀ earlier name later,
    Statement.ofLine set source = earlier ++ .label name :: later →
    (∀ statement ∈ later, statement.equated? ≠ some name) →
    symbols.find? name = some (.ofPlace last)

theorem Operation.executeWord_of_ended (mnemonic : String) (descriptor : Descriptor) {state : State}
    {last : Option Address} (ended : state.counter = .ended last) :
    executeWord mnemonic descriptor state = { state, faults := [.afterEnd mnemonic] } := by
  simp only [executeWord, ended, LocationCounter.occupy, LocationCounter.here, Fault.ofRefusal]

namespace Statement

theorem counter_executeAll_of_ended {state : State} {last : Option Address}
    (ended : state.counter = .ended last) (statements : List Statement) :
    (executeAll state statements).state.counter = .ended last := by
  have stays := mayBecome_executeAll statements state
  rw [ended] at stays
  exact stays

theorem not_placed_of_ended {state : State} {last : Option Address}
    (ended : state.counter = .ended last) (statements : List Statement) (address : Address)
    (category : Category) (opcode : Opcode) :
    .instruction (some address) category opcode ∉ (executeAll state statements).records := by
  intro placed
  rcases exists_running_of_placed placed with ⟨earlier, _, _, running⟩
  cases running.symm.trans (counter_executeAll_of_ended ended earlier)

/-- After the end all labels are given the same value, so it does not matter
which of those with one name is the last. -/
theorem find?_label_of_ended {state : State} {last : Option Address}
    (ended : state.counter = .ended last) {name : String} {later : List Statement}
    (notEquated : ∀ statement ∈ later, statement.equated? ≠ some name) :
    (executeAll state (.label name :: later)).state.symbols.find? name = some (.ofPlace last) := by
  have given : ∀ state : State, state.counter = .ended last →
      ((Statement.label name).execute state).state.symbols.find? name = some (.ofPlace last) := by
    intro state ended
    simp only [execute, State.symbols_bind]
    rw [SymbolTable.find?_assign, if_pos rfl, ended]
    rfl
  have start : ((Statement.label name).execute state).state.counter = .ended last := by
    simp only [execute, State.counter_bind, ended]
  have step : ∀ statement ∈ later, ∀ middle : State,
      middle.counter = .ended last ∧ middle.symbols.find? name = some (.ofPlace last) →
      (statement.execute middle).state.counter = .ended last ∧
        (statement.execute middle).state.symbols.find? name = some (.ofPlace last) := by
    rintro statement member middle ⟨stillEnded, found⟩
    have stays := statement.mayBecome_execute middle
    rw [stillEnded] at stays
    refine ⟨stays, ?_⟩
    by_cases isLabel : statement = .label name
    · rw [isLabel]
      exact given middle stillEnded
    · exact find?_execute isLabel (notEquated statement member) found
  exact (executeAll_induction
    (fun middle => middle.counter = .ended last ∧ middle.symbols.find? name = some (.ofPlace last))
    step ⟨start, given state ended⟩).2

end Statement

/-- One line after the end. -/
theorem State.assembledAfterEnd_step {before : State} {last : Option Address}
    (ended : before.counter = .ended last) (set : InstructionSet) (number : Nat) (source : String) :
    AssembledAfterEnd set last before source (before.step set number source).line
      (before.step set number source).state.symbols where
  counter := Statement.counter_executeAll_of_ended ended (Statement.ofLine set source)
  unplaced := Statement.not_placed_of_ended ended (Statement.ofLine set source)
  reported := by
    intro earlier mnemonic descriptor operation later split isPlain moment
    have member : .instruction mnemonic descriptor operation ∈ Statement.ofLine set source := by
      rw [split]
      exact List.mem_append_right earlier List.mem_cons_self
    rcases Statement.read_of_instruction_mem_readAll member with ⟨_, nearest, rest, wasRead⟩
    have isWord : operation = .word := by rw [wasRead, isPlain, Operation.read]
    subst isWord
    have stillEnded : moment.state.counter = .ended last :=
      Statement.counter_executeAll_of_ended ended earlier
    have refused := Operation.executeWord_of_ended mnemonic descriptor stillEnded
    change (Statement.executeAll before (Statement.ofLine set source)).faults = _
    rw [split, Statement.executeAll_append]
    simp only [Statement.executeAll, Statement.execute, Operation.execute]
    rw [refused]
    rfl
  labelled := by
    intro earlier name later split notEquated
    change (Statement.executeAll before (Statement.ofLine set source)).state.symbols.find? name = _
    rw [split, Statement.executeAll_append]
    exact Statement.find?_label_of_ended (Statement.counter_executeAll_of_ended ended earlier)
      notEquated

/-! ## Before the start -/

theorem Statement.not_placed_of_unstarted {statements : List Statement} {state : State}
    (unstarted : (executeAll state statements).state.counter = .unstarted) (address : Address)
    (category : Category) (opcode : Opcode) :
    .instruction (some address) category opcode ∉ (executeAll state statements).records := by
  intro placed
  rcases exists_running_of_placed placed with ⟨earlier, later, split, running⟩
  rw [split, executeAll_append] at unstarted
  have possible := mayBecome_executeAll later (executeAll state earlier).state
  rw [unstarted] at possible
  cases running.symm.trans possible.eq_unstarted

/-- As long as the counter is unstarted, only equations give addresses.  The
equation is the last statement that assigned the symbol. -/
theorem Statement.equated_of_unstarted {statements : List Statement} {name : String}
    {address : Address} (unstarted : (executeAll {} statements).state.counter = .unstarted)
    (found : (executeAll {} statements).state.symbols.find? name = some (.address address)) :
    ∃ earlier mnemonic descriptor meaning later,
      statements =
        earlier ++ .instruction mnemonic descriptor (.equate (some name) meaning) :: later ∧
      meaning.evaluate (executeAll {} earlier).state.symbols = .ok (.address address) ∧
      ∀ statement ∈ later, statement.assigned? ≠ some name := by
  have isValue := SymbolTable.value_of_find? found
  rcases value_executeAll_cases statements {} name with
    ⟨_, same⟩ | ⟨earlier, statement, later, split, gives, others⟩
  · cases isValue.symm.trans same
  · rw [isValue] at gives
    rw [split, executeAll_append] at unstarted
    have possible := mayBecome_executeAll (statement :: later) (executeAll {} earlier).state
    rw [unstarted] at possible
    generalize isGiven : Symbol.Value.address address = given at gives
    cases gives with
    | label =>
        rw [possible.eq_unstarted] at isGiven
        cases isGiven
    | equation evaluated =>
        subst isGiven
        exact ⟨earlier, _, _, _, later, split, evaluated, others⟩
    | failure failed => cases isGiven

/-- The phases of the counter over a whole program.  The counters of the lines
never go back.  After a line where it has ended, every line comes out as one
after the end.  Up to a line where it is unstarted nothing has been placed, and
every symbol with an address was given it by an equation. -/
theorem counter_keeps_phases (set : InstructionSet) (lines : List String) :
    ((assemble set lines).lines.map AssembledLine.counter).Pairwise LocationCounter.MayBecome ∧
    (∀ place line last, (assemble set lines).lines[place]? = some line →
      line.counter = .ended last →
      ∀ next source other, place < next → lines[next]? = some source →
        (assemble set lines).lines[next]? = some other →
        AssembledAfterEnd set last (State.reached set (lines.take next)) source other
          (assemble set (lines.take (next + 1))).symbols) ∧
    ∀ place line, (assemble set lines).lines[place]? = some line → line.counter = .unstarted →
      (∀ previous other, previous ≤ place → (assemble set lines).lines[previous]? = some other →
        ∀ address category opcode, .instruction (some address) category opcode ∉ other.records) ∧
      ∀ name address, (assemble set (lines.take (place + 1))).symbols.find? name =
        some (.address address) →
        ∃ earlier mnemonic descriptor meaning later,
          (lines.take (place + 1)).flatMap (Statement.ofLine set) =
            earlier ++ .instruction mnemonic descriptor (.equate (some name) meaning) :: later ∧
          descriptor.role = .equate ∧
          meaning.evaluate (Statement.executeAll {} earlier).state.symbols =
            .ok (.address address) ∧
          ∀ statement ∈ later, statement.assigned? ≠ some name := by
  refine ⟨?_, ?_, ?_⟩
  · rw [List.pairwise_map, List.pairwise_iff_getElem]
    intro first second firstBound secondBound order
    rw [counter_of_line (List.getElem?_eq_getElem firstBound),
      counter_of_line (List.getElem?_eq_getElem secondBound)]
    exact State.mayBecome_reached set lines (Nat.succ_le_succ (Nat.le_of_lt order))
  · intro place line last isLine ended next source other order isSource isOther
    have stays := State.mayBecome_reached set lines (Nat.succ_le_of_lt order)
    rw [← counter_of_line isLine, ended] at stays
    rw [getElem?_lines_assemble, isSource, Option.map_some, Option.some.injEq] at isOther
    rw [← isOther, symbols_assemble, State.reached_take_succ isSource]
    exact State.assembledAfterEnd_step stays set (1 + next) source
  · intro place line isLine unstarted
    rw [counter_of_line isLine] at unstarted
    refine ⟨?_, ?_⟩
    · intro previous other order isOther
      have possible := State.mayBecome_reached set lines (Nat.succ_le_succ order)
      rw [unstarted] at possible
      have isUnstarted := possible.eq_unstarted
      rw [getElem?_lines_assemble] at isOther
      rcases Option.map_eq_some_iff.mp isOther with ⟨source, isSource, same⟩
      rw [State.reached_take_succ isSource] at isUnstarted
      subst same
      exact Statement.not_placed_of_unstarted isUnstarted
    · intro name address found
      rw [symbols_assemble] at found
      rw [State.reached, State.run_eq_executeAll] at found unstarted
      rcases Statement.equated_of_unstarted unstarted found with
        ⟨earlier, mnemonic, descriptor, meaning, later, split, evaluated, others⟩
      refine ⟨earlier, mnemonic, descriptor, meaning, later, split, ?_, evaluated, others⟩
      have member : .instruction mnemonic descriptor (.equate (some name) meaning) ∈
          (lines.take (place + 1)).flatMap (Statement.ofLine set) := by
        rw [split]
        exact List.mem_append_right earlier List.mem_cons_self
      rcases List.mem_flatMap.mp member with ⟨source, _, inLine⟩
      exact Statement.descriptor_role_of_role? inLine rfl

/-- Before the start, `A` gets an address by an equation.  After the end, `N`
gets the last address, and the addition beside it is reported. -/
theorem counter_keeps_phases_around_run :
    (∃ earlier mnemonic descriptor meaning later,
      ["A EQU 5", "L STOP"].flatMap (Statement.ofLine .standard) =
        earlier ++ .instruction mnemonic descriptor (.equate (some "A") meaning) :: later ∧
      meaning.evaluate (Statement.executeAll {} earlier).state.symbols =
        .ok (.address ⟨5, by decide⟩)) ∧
    (assemble .standard
      ["A EQU 5", "L STOP", "START 100", "M ADD", "END", "N ADD BREG P"]).symbols.find? "N" =
      some (.address ⟨101, by decide⟩) ∧
    .afterEnd "ADD" ∈
      ((assemble .standard
        ["A EQU 5", "L STOP", "START 100", "M ADD", "END", "N ADD BREG P"]).lines.flatMap
        AssembledLine.faults) := by
  have phases := (counter_keeps_phases .standard
    ["A EQU 5", "L STOP", "START 100", "M ADD", "END", "N ADD BREG P"]).2
  have isEarly : (assemble .standard
      ["A EQU 5", "L STOP", "START 100", "M ADD", "END", "N ADD BREG P"]).lines[1]? =
        some ⟨2, [.label "L"], [.counterUnstarted "STOP"], .unstarted⟩ := by
    decide +kernel
  have isEnd : (assemble .standard
      ["A EQU 5", "L STOP", "START 100", "M ADD", "END", "N ADD BREG P"]).lines[4]? =
        some ⟨5, [.instruction none .directive ⟨2⟩], [], .ended (some ⟨101, by decide⟩)⟩ := by
    decide +kernel
  have isLast : (assemble .standard
      ["A EQU 5", "L STOP", "START 100", "M ADD", "END", "N ADD BREG P"]).lines[5]? =
        some ⟨6, [.label "N", .register ⟨2⟩, .reference "P" 5], [.afterEnd "ADD"],
          .ended (some ⟨101, by decide⟩)⟩ := by
    decide +kernel
  have isLine : Statement.ofLine .standard "N ADD BREG P" = [.label "N",
      .instruction "ADD" ⟨⟨1⟩, .imperative, .plain⟩ .word, .register "BREG" ⟨2⟩,
        .reference "P"] := by
    decide +kernel
  have after := phases.1 4 _ _ isEnd rfl 5 "N ADD BREG P" _ (by decide) rfl isLast
  refine ⟨?_, ?_, ?_⟩
  · rcases (phases.2 1 _ isEarly rfl).2 "A" ⟨5, by decide⟩ (by decide +kernel) with
      ⟨earlier, mnemonic, descriptor, meaning, later, split, _, evaluated, _⟩
    exact ⟨earlier, mnemonic, descriptor, meaning, later, split, evaluated⟩
  · exact after.labelled [] "N" _ isLine (by decide)
  · refine List.mem_flatMap.mpr ⟨_, List.mem_of_getElem? isLast, ?_⟩
    rw [after.reported [.label "N"] "ADD" _ _ _ isLine rfl]
    exact List.mem_append_right _ List.mem_cons_self

end FirstPass
