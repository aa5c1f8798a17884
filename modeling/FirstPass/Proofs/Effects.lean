import FirstPass.Execution
import FirstPass.Proofs.Reading
import FirstPass.Proofs.SymbolTable

namespace FirstPass

/-!
What one statement can do.

Each operation has a lemma here that lists its outcomes: the state it leaves
and the records it hands on.  The rest of the theory cites these lemmas and
never opens an operation again.  Two summaries follow from them: a statement
changes the symbol table only by admitting names, and the value of a symbol
only if it is a label or an equation for that symbol.
-/

namespace State

@[simp] theorem symbols_bind (state : State) (name : String) (value : Symbol.Value) :
    (state.bind name value).1.symbols = (state.symbols.assign name value).2 := by
  unfold bind
  rcases state.symbols.assign name value with ⟨_ | before, symbols⟩ <;> rfl

@[simp] theorem counter_bind (state : State) (name : String) (value : Symbol.Value) :
    (state.bind name value).1.counter = state.counter := by
  unfold bind
  rcases state.symbols.assign name value with ⟨_ | before, symbols⟩ <;> rfl

@[simp] theorem counter_mentionTerm (state : State) (term : Term) :
    (state.mentionTerm term).counter = state.counter := by
  cases term <;> rfl

/-- To mention a symbol never changes a value. -/
theorem find?_mention {state : State} {name : String} {value : Symbol.Value}
    (found : state.symbols.find? name = some value) (other : String) :
    (state.mention other).symbols.find? name = some value := by
  unfold mention
  rw [SymbolTable.find?_insertIfNew]
  by_cases same : name = other
  · rw [if_pos same, ← same, found, Option.getD_some]
  · rw [if_neg same, found]

theorem find?_mentionTerm {state : State} {name : String} {value : Symbol.Value}
    (found : state.symbols.find? name = some value) (term : Term) :
    (state.mentionTerm term).symbols.find? name = some value := by
  cases term with
  | number numeral => exact found
  | symbol other => exact find?_mention found other

/-- A term has the same value before and after it is mentioned: a symbol that
was not in the table was unresolved already. -/
theorem evaluate_mentionTerm (state : State) (expression : Expression) :
    expression.evaluate (state.mentionTerm expression.term).symbols =
      expression.evaluate state.symbols := by
  have value : expression.term.value (state.mentionTerm expression.term).symbols =
      expression.term.value state.symbols := by
    cases expression.term with
    | number numeral => rfl
    | symbol name =>
        simp only [Term.value, mentionTerm, mention]
        rw [SymbolTable.find?_insertIfNew, if_pos rfl, Option.getD_some]
  unfold Expression.evaluate
  rw [value]

end State

/-- What an operator gives is its exact result. -/
theorem Operator.value_of_apply {operator : Operator} {left right : Int} {address : Address}
    (applied : operator.apply left right = .ok address) :
    address.value = operator.exact left right := by
  unfold apply at applied
  split at applied
  · cases applied
  · split at applied
    · rename_i inRange
      cases applied
      exact Address.ofInt?_eq_some_iff.mp inRange
    · cases applied

/-- An expression has an address only if its term has one, from which it is
computed. -/
theorem Expression.evaluate_eq_address {expression : Expression} {symbols : SymbolTable}
    {address : Address} (evaluated : expression.evaluate symbols = .ok (.address address)) :
    ∃ place, expression.term.value symbols = .address place ∧
      ((expression.arithmetic = none ∧ address = place) ∨
        ∃ operator numeral, expression.arithmetic = some (operator, numeral) ∧
          address.value = operator.exact place.value numeral.value.value) := by
  unfold evaluate at evaluated
  split at evaluated
  · rename_i place operator numeral isPlace isArithmetic
    cases applied : operator.apply place.value numeral.value.value with
    | error fault => simp [applied, Except.map] at evaluated
    | ok result =>
        simp only [applied, Except.map, Except.ok.injEq, Symbol.Value.address.injEq] at evaluated
        subst evaluated
        exact ⟨place, isPlace,
          Or.inr ⟨operator, numeral, isArithmetic, Operator.value_of_apply applied⟩⟩
  · rename_i noArithmetic
    have isValue := Except.ok.inj evaluated
    cases isArithmetic : expression.arithmetic with
    | none => exact ⟨address, isValue, Or.inl ⟨rfl, rfl⟩⟩
    | some pair => exact absurd isArithmetic (noArithmetic address pair.1 pair.2 isValue)

/-- Words are either taken up at the running counter, or refused. -/
theorem LocationCounter.occupy_cases (counter : LocationCounter) (words : Int) :
    (∃ first next, counter = .running first ∧ next.value = first.value + words ∧
      counter.occupy words = .ok (first, .running next)) ∨
    ∃ refusal, counter.occupy words = .error refusal := by
  cases counter with
  | unstarted => exact Or.inr ⟨.unstarted, rfl⟩
  | ended last => exact Or.inr ⟨.ended, rfl⟩
  | running first =>
      cases moved : first.offset? words with
      | none => exact Or.inr ⟨.overflow, by simp only [occupy, here, moved]⟩
      | some next =>
          exact Or.inl ⟨first, next, rfl, Address.ofInt?_eq_some_iff.mp moved,
            by simp only [occupy, here, moved]⟩

namespace Operation

theorem records_executeStart (mnemonic : String) (descriptor : Descriptor) (address : Numeral)
    (state : State) :
    (executeStart mnemonic descriptor address state).records =
      [.ofDescriptor none descriptor, .constant address.digits] := by
  unfold executeStart
  cases state.counter.startAt address.value <;> rfl

theorem symbols_executeStart (mnemonic : String) (descriptor : Descriptor) (address : Numeral)
    (state : State) :
    (executeStart mnemonic descriptor address state).state.symbols = state.symbols := by
  unfold executeStart
  cases state.counter.startAt address.value <;> rfl

theorem records_executeOrigin (mnemonic : String) (descriptor : Descriptor) (target : Expression)
    (state : State) :
    (executeOrigin mnemonic descriptor target state).records =
      [.ofDescriptor none descriptor, .ofTerm state.symbols target.term] := by
  unfold executeOrigin
  repeat' split
  all_goals rfl

theorem symbols_executeOrigin (mnemonic : String) (descriptor : Descriptor) (target : Expression)
    (state : State) :
    (executeOrigin mnemonic descriptor target state).state.symbols = state.symbols := by
  unfold executeOrigin
  repeat' split
  all_goals rfl

/-- A start sets the counter, or else leaves the state as it was, because the
counter has ended. -/
theorem executeStart_cases (mnemonic : String) (descriptor : Descriptor) (address : Numeral)
    (state : State) :
    (state.counter.isEnded = false ∧ executeStart mnemonic descriptor address state =
      { state := { state with counter := .running address.value }
        records := [.ofDescriptor none descriptor, .constant address.digits]
        events := [.counterStarted address.value] }) ∨
    ∃ fault, executeStart mnemonic descriptor address state =
      { state, records := [.ofDescriptor none descriptor, .constant address.digits],
        faults := [fault] } := by
  cases phase : state.counter with
  | unstarted => exact Or.inl ⟨rfl, by simp only [executeStart, phase, LocationCounter.startAt]⟩
  | running here => exact Or.inl ⟨rfl, by simp only [executeStart, phase, LocationCounter.startAt]⟩
  | ended last =>
      exact Or.inr ⟨.ofRefusal mnemonic .ended,
        by simp only [executeStart, phase, LocationCounter.startAt]⟩

/-- An end reports whether the counter was running, but ends it in any case. -/
theorem executeFinish_cases (mnemonic : String) (descriptor : Descriptor) (state : State) :
    (executeFinish mnemonic descriptor state).state =
      { state with counter := .ended state.counter.value } ∧
    ((∃ address, state.counter = .running address ∧
      (executeFinish mnemonic descriptor state).faults = []) ∨
      ∃ fault, (executeFinish mnemonic descriptor state).faults = [fault]) := by
  refine ⟨rfl, ?_⟩
  cases phase : state.counter with
  | unstarted =>
      exact Or.inr ⟨.ofRefusal mnemonic .unstarted, by
        simp only [executeFinish, phase, LocationCounter.finish, LocationCounter.here,
          Option.map_some, Option.toList_some]⟩
  | running address =>
      exact Or.inl ⟨address, rfl, by
        simp only [executeFinish, phase, LocationCounter.finish, LocationCounter.here,
          Option.map_none, Option.toList_none]⟩
  | ended last =>
      exact Or.inr ⟨.ofRefusal mnemonic .ended, by
        simp only [executeFinish, phase, LocationCounter.finish, LocationCounter.here,
          Option.map_some, Option.toList_some]⟩

/-- A move takes the running counter to the address of its target, or else
leaves the state as it was. -/
theorem executeOrigin_cases (mnemonic : String) (descriptor : Descriptor) (target : Expression)
    (state : State) :
    (∃ first place, state.counter = .running first ∧
      target.evaluate state.symbols = .ok (.address place) ∧
      executeOrigin mnemonic descriptor target state =
        { state := { state with counter := .running place }
          records := [.ofDescriptor none descriptor, .ofTerm state.symbols target.term]
          events := [.counterMoved place] }) ∨
    ∃ fault, executeOrigin mnemonic descriptor target state =
      { state, records := [.ofDescriptor none descriptor, .ofTerm state.symbols target.term],
        faults := [fault] } := by
  cases phase : state.counter with
  | unstarted =>
      exact Or.inr ⟨.ofRefusal mnemonic .unstarted,
        by simp only [executeOrigin, phase, LocationCounter.here]⟩
  | ended last =>
      exact Or.inr ⟨.ofRefusal mnemonic .ended,
        by simp only [executeOrigin, phase, LocationCounter.here]⟩
  | running first =>
      cases evaluated : target.evaluate state.symbols with
      | error fault =>
          exact Or.inr ⟨.ofArithmetic fault, by
            simp only [executeOrigin, phase, LocationCounter.here, evaluated]⟩
      | ok value =>
          cases value with
          | address place =>
              exact Or.inl ⟨first, place, rfl, rfl, by
                simp only [executeOrigin, phase, LocationCounter.here, evaluated,
                  LocationCounter.moveTo]⟩
          | unresolved =>
              exact Or.inr ⟨.unresolvedSymbol target.term.text, by
                simp only [executeOrigin, phase, LocationCounter.here, evaluated]⟩
          | unplaced =>
              exact Or.inr ⟨.unplacedSymbol target.term.text, by
                simp only [executeOrigin, phase, LocationCounter.here, evaluated]⟩

/-- An equation shows its term as it stands in the table once it is there. -/
theorem records_executeEquate (descriptor : Descriptor) (label : Option String)
    (meaning : Expression) (state : State) :
    (executeEquate descriptor label meaning state).records =
      [.ofDescriptor none descriptor,
        .ofTerm (state.mentionTerm meaning.term).symbols meaning.term] := by
  cases label <;> rfl

/-- An equation makes its term known and then gives its label a value, if it
has a label. -/
theorem executeEquate_cases (descriptor : Descriptor) (label : Option String) (meaning : Expression)
    (state : State) :
    (label = none ∧ (executeEquate descriptor label meaning state).state =
      state.mentionTerm meaning.term) ∨
      ∃ name value, label = some name ∧ (executeEquate descriptor label meaning state).state =
        ((state.mentionTerm meaning.term).bind name value).1 := by
  cases label with
  | none => exact Or.inl ⟨rfl, rfl⟩
  | some name =>
      cases evaluated : meaning.evaluate (state.mentionTerm meaning.term).symbols with
      | ok value => exact Or.inr ⟨name, value, rfl, by simp only [executeEquate, evaluated]⟩
      | error fault =>
          exact Or.inr ⟨name, .unresolved, rfl, by simp only [executeEquate, evaluated]⟩

/-- An equation with a label gives it the value that its expression has before
the equation, or makes it unresolved if the expression has none. -/
theorem executeEquate_labelled (descriptor : Descriptor) (name : String) (meaning : Expression)
    (state : State) :
    (∃ value, meaning.evaluate state.symbols = .ok value ∧
      (executeEquate descriptor (some name) meaning state).faults = [] ∧
      (executeEquate descriptor (some name) meaning state).state =
        ((state.mentionTerm meaning.term).bind name value).1) ∨
    ∃ fault, meaning.evaluate state.symbols = .error fault ∧
      (executeEquate descriptor (some name) meaning state).faults = [.ofArithmetic fault] ∧
      (executeEquate descriptor (some name) meaning state).state =
        ((state.mentionTerm meaning.term).bind name .unresolved).1 := by
  have before := state.evaluate_mentionTerm meaning
  cases evaluated : meaning.evaluate state.symbols with
  | ok value =>
      rw [evaluated] at before
      exact Or.inl ⟨value, rfl, by simp only [executeEquate, before],
        by simp only [executeEquate, before]⟩
  | error fault =>
      rw [evaluated] at before
      exact Or.inr ⟨fault, rfl, by simp only [executeEquate, before],
        by simp only [executeEquate, before]⟩

theorem counter_executeEquate (descriptor : Descriptor) (label : Option String)
    (meaning : Expression) (state : State) :
    (executeEquate descriptor label meaning state).state.counter = state.counter := by
  rcases executeEquate_cases descriptor label meaning state with
    ⟨_, unlabelled⟩ | ⟨name, value, _, bound⟩
  · rw [unlabelled, State.counter_mentionTerm]
  · rw [bound, State.counter_bind, State.counter_mentionTerm]

/-- A reservation is placed at the running counter and moves it by the count,
or else leaves the state as it was and shows only the count. -/
theorem executeReserve_cases (mnemonic : String) (descriptor : Descriptor) (count : Numeral)
    (state : State) :
    (∃ first next, state.counter = .running first ∧ next.value = first.value + count.value.value ∧
      executeReserve mnemonic descriptor count state =
        { state := { state with counter := .running next }
          records := [.ofDescriptor (some first) descriptor, .constant count.digits] }) ∨
    ∃ fault, executeReserve mnemonic descriptor count state =
      { state, records := [.constant count.digits], faults := [fault] } := by
  rcases state.counter.occupy_cases count.value.value with
    ⟨first, next, running, moved, taken⟩ | ⟨refusal, refused⟩
  · exact Or.inl ⟨first, next, running, moved, by simp only [executeReserve, taken]⟩
  · exact Or.inr ⟨.ofRefusal mnemonic refusal, by simp only [executeReserve, refused]⟩

/-- A word is placed at the running counter and moves it by one, or else
leaves the state as it was and no record. -/
theorem executeWord_cases (mnemonic : String) (descriptor : Descriptor) (state : State) :
    (∃ first next, state.counter = .running first ∧ next.value = first.value + 1 ∧
      executeWord mnemonic descriptor state =
        { state := { state with counter := .running next }
          records := [.ofDescriptor (some first) descriptor] }) ∨
    ∃ fault, executeWord mnemonic descriptor state = { state, faults := [fault] } := by
  rcases state.counter.occupy_cases 1 with ⟨first, next, running, moved, taken⟩ | ⟨refusal, refused⟩
  · exact Or.inl ⟨first, next, running, moved, by simp only [executeWord, taken]⟩
  · exact Or.inr ⟨.ofRefusal mnemonic refusal, by simp only [executeWord, refused]⟩

/-- What a mnemonic can do to the counter: leave it alone, or else, without a
fault, set it to an address unless it has ended, or end it. -/
theorem counter_execute_cases (mnemonic : String) (descriptor : Descriptor) (operation : Operation)
    (state : State) :
    (operation.execute mnemonic descriptor state).state.counter = state.counter ∨
    (∃ address, state.counter.isEnded = false ∧
      (operation.execute mnemonic descriptor state).faults = [] ∧
      (operation.execute mnemonic descriptor state).state.counter = .running address) ∨
    operation = .finish ∧
      (operation.execute mnemonic descriptor state).state.counter = .ended state.counter.value := by
  have notEnded : ∀ first, state.counter = .running first → state.counter.isEnded = false := by
    intro first running
    rw [running]
    rfl
  cases operation with
  | start address =>
      rw [execute]
      rcases executeStart_cases mnemonic descriptor address state with
        ⟨startable, done⟩ | ⟨_, refused⟩
      · rw [done]
        exact Or.inr (Or.inl ⟨address.value, startable, rfl, rfl⟩)
      · rw [refused]
        exact Or.inl rfl
  | finish => exact Or.inr (Or.inr ⟨rfl, rfl⟩)
  | origin target =>
      rw [execute]
      rcases executeOrigin_cases mnemonic descriptor target state with
        ⟨first, place, running, _, done⟩ | ⟨_, refused⟩
      · rw [done]
        exact Or.inr (Or.inl ⟨place, notEnded first running, rfl, rfl⟩)
      · rw [refused]
        exact Or.inl rfl
  | equate label meaning => exact Or.inl (counter_executeEquate descriptor label meaning state)
  | reserve count =>
      rw [execute]
      rcases executeReserve_cases mnemonic descriptor count state with
        ⟨first, next, running, _, done⟩ | ⟨_, refused⟩
      · rw [done]
        exact Or.inr (Or.inl ⟨next, notEnded first running, rfl, rfl⟩)
      · rw [refused]
        exact Or.inl rfl
  | word =>
      rw [execute]
      rcases executeWord_cases mnemonic descriptor state with
        ⟨first, next, running, _, done⟩ | ⟨_, refused⟩
      · rw [done]
        exact Or.inr (Or.inl ⟨next, notEnded first running, rfl, rfl⟩)
      · rw [refused]
        exact Or.inl rfl
  | malformed operands fault => exact Or.inl rfl

/-- Only equations touch the symbol table. -/
theorem symbols_execute (mnemonic : String) (descriptor : Descriptor) {operation : Operation}
    (other : operation.role? ≠ some .equate) (state : State) :
    (operation.execute mnemonic descriptor state).state.symbols = state.symbols := by
  cases operation with
  | start address => exact symbols_executeStart mnemonic descriptor address state
  | finish => rfl
  | origin target => exact symbols_executeOrigin mnemonic descriptor target state
  | equate label meaning => exact absurd rfl other
  | reserve count =>
      simp only [execute]
      rcases executeReserve_cases mnemonic descriptor count state with
        ⟨_, _, _, _, done⟩ | ⟨_, refused⟩
      · rw [done]
      · rw [refused]
  | word =>
      simp only [execute]
      rcases executeWord_cases mnemonic descriptor state with ⟨_, _, _, _, done⟩ | ⟨_, refused⟩
      · rw [done]
      · rw [refused]
  | malformed operands fault => rfl

/-- The records that a mnemonic can hand on: its own, which is placed only where
the counter is, the one of a numeral, and the one of the term of a move or of
an equation. -/
theorem mem_records_execute {mnemonic : String} {descriptor : Descriptor} {operation : Operation}
    {state : State} {record : Record}
    (member : record ∈ (operation.execute mnemonic descriptor state).records) :
    record = .ofDescriptor none descriptor ∨
    (∃ first, state.counter = .running first ∧ record = .ofDescriptor (some first) descriptor) ∨
    (∃ digits, record = .constant digits) ∨
    (∃ target, operation = .origin target ∧ record = .ofTerm state.symbols target.term) ∨
    ∃ label meaning, operation = .equate label meaning ∧
      record = .ofTerm (state.mentionTerm meaning.term).symbols meaning.term := by
  cases operation with
  | start address =>
      rw [execute, records_executeStart] at member
      rcases List.mem_pair.mp member with own | shown
      · exact Or.inl own
      · exact Or.inr (Or.inr (Or.inl ⟨address.digits, shown⟩))
  | finish => exact Or.inl (List.mem_singleton.mp member)
  | origin target =>
      rw [execute, records_executeOrigin] at member
      rcases List.mem_pair.mp member with own | shown
      · exact Or.inl own
      · exact Or.inr (Or.inr (Or.inr (Or.inl ⟨target, rfl, shown⟩)))
  | equate label meaning =>
      rw [execute, records_executeEquate] at member
      rcases List.mem_pair.mp member with own | shown
      · exact Or.inl own
      · exact Or.inr (Or.inr (Or.inr (Or.inr ⟨label, meaning, rfl, shown⟩)))
  | reserve count =>
      rw [execute] at member
      rcases executeReserve_cases mnemonic descriptor count state with
        ⟨first, _, running, _, done⟩ | ⟨_, refused⟩
      · rw [done] at member
        rcases List.mem_pair.mp member with own | shown
        · exact Or.inr (Or.inl ⟨first, running, own⟩)
        · exact Or.inr (Or.inr (Or.inl ⟨count.digits, shown⟩))
      · rw [refused] at member
        exact Or.inr (Or.inr (Or.inl ⟨count.digits, List.mem_singleton.mp member⟩))
  | word =>
      rw [execute] at member
      rcases executeWord_cases mnemonic descriptor state with
        ⟨first, _, running, _, done⟩ | ⟨_, refused⟩
      · rw [done] at member
        exact Or.inr (Or.inl ⟨first, running, List.mem_singleton.mp member⟩)
      · rw [refused] at member
        cases member
  | malformed operands fault => exact Or.inl (List.mem_singleton.mp member)

/-- No mnemonic hands on a label. -/
theorem label_not_mem_records_execute (mnemonic : String) (descriptor : Descriptor)
    (operation : Operation) (state : State) (name : String) :
    .label name ∉ (operation.execute mnemonic descriptor state).records := by
  have notTerm : ∀ (symbols : SymbolTable) (term : Term),
      .label name ≠ Record.ofTerm symbols term := by
    intro symbols term
    cases term <;> exact Record.noConfusion
  intro member
  rcases mem_records_execute member with
    own | ⟨_, _, own⟩ | ⟨_, shown⟩ | ⟨target, _, shown⟩ | ⟨_, meaning, _, shown⟩
  · cases own
  · cases own
  · cases shown
  · exact notTerm state.symbols target.term shown
  · exact notTerm (state.mentionTerm meaning.term).symbols meaning.term shown

end Operation

namespace Statement

/-- What both changes of a table preserve, every statement preserves. -/
theorem symbols_execute_of_changes (Holds : SymbolTable → Prop)
    (inserted : ∀ {table} name value, Holds table → Holds (table.insertIfNew name value).2)
    (assigned : ∀ {table} name value, Holds table → Holds (table.assign name value).2)
    (statement : Statement) {state : State} (holds : Holds state.symbols) :
    Holds (statement.execute state).state.symbols := by
  cases statement with
  | instruction mnemonic descriptor operation =>
      cases operation with
      | equate label meaning =>
          have mentioned : Holds (state.mentionTerm meaning.term).symbols := by
            cases meaning.term with
            | number numeral => exact holds
            | symbol name => exact inserted name .unresolved holds
          simp only [execute, Operation.execute]
          rcases Operation.executeEquate_cases descriptor label meaning state with
            ⟨_, unlabelled⟩ | ⟨name, value, _, bound⟩
          · rw [unlabelled]
            exact mentioned
          · rw [bound, State.symbols_bind]
            exact assigned name value mentioned
      | _ =>
          rw [execute, Operation.symbols_execute _ _ (by simp [Operation.role?])]
          exact holds
  | label name =>
      simp only [execute, State.symbols_bind]
      exact assigned name _ holds
  | reference name => exact inserted name .unresolved holds
  | register word code => exact holds
  | condition word code => exact holds
  | constant digits => exact holds

/-- What every admission of a name preserves, every statement preserves. -/
theorem symbols_execute_of_admits (Holds : SymbolTable → Prop)
    (admitted : ∀ {before name after}, SymbolTable.Admits before name after → Holds before →
      Holds after) (statement : Statement) {state : State} (holds : Holds state.symbols) :
    Holds (statement.execute state).state.symbols :=
  symbols_execute_of_changes Holds (fun {table} name value =>
    admitted (table.admits_insertIfNew name value))
    (fun {table} name value => admitted (table.admits_assign name value)) statement holds

theorem sound_execute (statement : Statement) {state : State} (sound : state.symbols.Sound) :
    (statement.execute state).state.symbols.Sound :=
  symbols_execute_of_admits SymbolTable.Sound (fun admits before => admits.sound before) statement
    sound

theorem order_grows_execute (statement : Statement) (state : State) :
    state.symbols.order <+: (statement.execute state).state.symbols.order :=
  symbols_execute_of_admits (fun table => state.symbols.order <+: table.order)
    (fun admits before => before.trans admits.order_grows) statement (List.prefix_refl _)

/-- A placed record was handed on while the counter was running. -/
theorem counter_of_placed {statement : Statement} {state : State} {address : Address}
    {category : Category} {opcode : Opcode}
    (placed : .instruction (some address) category opcode ∈ (statement.execute state).records) :
    state.counter = .running address := by
  have notTerm : ∀ (symbols : SymbolTable) (term : Term),
      .instruction (some address) category opcode ≠ Record.ofTerm symbols term := by
    intro symbols term
    cases term <;> exact Record.noConfusion
  cases statement with
  | instruction mnemonic descriptor operation =>
      rcases Operation.mem_records_execute placed with
        own | ⟨first, running, own⟩ | ⟨_, shown⟩ | ⟨target, _, shown⟩ | ⟨_, meaning, _, shown⟩
      · cases own
      · rw [running, Option.some.inj (Record.instruction.inj own).1]
      · cases shown
      · exact absurd shown (notTerm state.symbols target.term)
      · exact absurd shown (notTerm (state.mentionTerm meaning.term).symbols meaning.term)
  | label name => simp [execute] at placed
  | reference name => simp [execute, Record.ofReference] at placed
  | register word code => simp [execute] at placed
  | condition word code => simp [execute] at placed
  | constant digits => simp [execute] at placed

theorem label_mem_records_execute {statement : Statement} {state : State} {name : String} :
    .label name ∈ (statement.execute state).records ↔ statement = .label name := by
  cases statement with
  | instruction mnemonic descriptor operation =>
      have never := operation.label_not_mem_records_execute mnemonic descriptor state name
      exact ⟨fun member => absurd member never, fun same => by cases same⟩
  | label other => simp [execute, eq_comm]
  | reference other => simp [execute, Record.ofReference]
  | register word code => simp [execute]
  | condition word code => simp [execute]
  | constant digits => simp [execute]

/-- A symbol keeps its value through every statement that is neither a label
nor an equation for it. -/
theorem find?_execute {statement : Statement} {state : State} {name : String} {value : Symbol.Value}
    (notLabel : statement ≠ .label name) (notEquated : statement.equated? ≠ some name)
    (found : state.symbols.find? name = some value) :
    (statement.execute state).state.symbols.find? name = some value := by
  cases statement with
  | instruction mnemonic descriptor operation =>
      cases operation with
      | equate label meaning =>
          have mentioned := State.find?_mentionTerm found meaning.term
          simp only [execute, Operation.execute]
          rcases Operation.executeEquate_cases descriptor label meaning state with
            ⟨_, unlabelled⟩ | ⟨other, given, isLabel, bound⟩
          · rw [unlabelled, mentioned]
          · have different : name ≠ other := fun same => notEquated (same ▸ isLabel)
            rw [bound, State.symbols_bind, SymbolTable.find?_assign, if_neg different, mentioned]
      | _ => rw [execute, Operation.symbols_execute _ _ (by simp [Operation.role?]), found]
  | label other =>
      have different : name ≠ other := fun same => notLabel (same ▸ rfl)
      simp only [execute, State.symbols_bind]
      rw [SymbolTable.find?_assign, if_neg different, found]
  | reference other => exact State.find?_mention found other
  | register word code => exact found
  | condition word code => exact found
  | constant digits => exact found

end Statement
end FirstPass
