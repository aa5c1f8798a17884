import FirstPass.Proofs.Runs
import Mathlib.Data.List.Induction

namespace FirstPass

/-!
References and the symbol table.

A reference is numbered when it is handed on, while the table still grows.
Because a symbol never loses its place, the number leads to the right symbol
in the last table as well.  Conversely the names of the last table can be
rebuilt, in order, from the records alone.

Only the target of a move of the location counter may be a symbol that is not
in the table.  Such a reference has the number zero, and its symbol is not
entered.
-/

namespace Record

/-- The symbol that a record shows to be in the table. -/
def name? : Record → Option String
  | .label name => some name
  | .reference name (_ + 1) => some name
  | _ => none

theorem name?_eq_some_iff {record : Record} {name : String} :
    record.name? = some name ↔
      record = .label name ∨ ∃ index, 1 ≤ index ∧ record = .reference name index := by
  cases record with
  | label other => simp [name?]
  | reference other index =>
      cases index with
      | zero => simp [name?]
      | succ index => simp [name?]
  | instruction address category opcode => simp [name?]
  | register code => simp [name?]
  | condition code => simp [name?]
  | constant digits => simp [name?]

/-- A reference either has the number of its symbol, or the symbol is not in
the table. -/
theorem ofReference_cases {symbols : SymbolTable} (sound : symbols.Sound) (name : String) :
    (∃ place, symbols.order[place]? = some name ∧
      ofReference symbols name = .reference name (place + 1)) ∨
    (symbols.find? name = none ∧ ofReference symbols name = .reference name 0) := by
  unfold ofReference
  cases found : symbols.index? name with
  | some place => exact Or.inl ⟨place, sound.index?_eq_some_iff.mp found, rfl⟩
  | none => exact Or.inr ⟨sound.index?_eq_none_iff.mp found, rfl⟩

/-- A term that is shown as a reference is a symbol. -/
theorem eq_ofReference_of_ofTerm {symbols : SymbolTable} {term : Term} {name : String} {index : Nat}
    (shown : .reference name index = ofTerm symbols term) :
    term = .symbol name ∧ .reference name index = ofReference symbols name := by
  cases term with
  | number numeral => cases shown
  | symbol other =>
      have same : name = other := by
        simp only [ofTerm, ofReference, reference.injEq] at shown
        exact shown.1
      subst same
      exact ⟨rfl, shown⟩

end Record

/-! ## Numbers of references -/

/-- Among the operations, only moves and equations hand on references, and
each hands on one, for its term. -/
theorem Operation.reference_mem_records_execute {mnemonic : String} {descriptor : Descriptor}
    {operation : Operation} {state : State} {name : String} {index : Nat}
    (member : .reference name index ∈ (operation.execute mnemonic descriptor state).records) :
    (∃ target, operation = .origin target ∧ target.term = .symbol name ∧
      .reference name index = Record.ofReference state.symbols name) ∨
    ∃ label meaning, operation = .equate label meaning ∧ meaning.term = .symbol name ∧
      .reference name index = Record.ofReference (state.mention name).symbols name := by
  rcases mem_records_execute member with
    own | ⟨_, _, own⟩ | ⟨_, shown⟩ | ⟨target, isOrigin, shown⟩ | ⟨label, meaning, isEquate, shown⟩
  · cases own
  · cases own
  · cases shown
  · exact Or.inl ⟨target, isOrigin, Record.eq_ofReference_of_ofTerm shown⟩
  · rcases Record.eq_ofReference_of_ofTerm shown with ⟨isSymbol, same⟩
    rw [isSymbol] at same
    exact Or.inr ⟨label, meaning, isEquate, isSymbol, same⟩

/-- The records of a move before the one of its term. -/
theorem Operation.front_of_origin {mnemonic : String} {descriptor : Descriptor}
    {target : Expression} {state : State} {name : String} {index : Nat} {inner outer : List Record}
    (split : ((Operation.origin target).execute mnemonic descriptor state).records =
      inner ++ .reference name index :: outer) : inner = [.ofDescriptor none descriptor] := by
  rw [execute, records_executeOrigin] at split
  cases inner with
  | nil => cases split
  | cons first inner =>
      rcases List.cons.inj split with ⟨same, shown⟩
      cases inner with
      | nil => rw [same]
      | cons second inner => simp at shown

/-- A symbol that was just mentioned is in the table, so a reference to it has
its number. -/
theorem State.ofReference_mention {state : State} (sound : state.symbols.Sound) (name : String) :
    ∃ place, (state.mention name).symbols.order[place]? = some name ∧
      Record.ofReference (state.mention name).symbols name = .reference name (place + 1) := by
  have admits := state.symbols.admits_insertIfNew name .unresolved
  rcases Record.ofReference_cases (admits.sound sound) name with numbered | ⟨absent, _⟩
  · exact numbered
  · have present := admits.present
    rw [absent] at present
    cases present

theorem Operation.order_grows_executeEquate (descriptor : Descriptor) (label : Option String)
    (meaning : Expression) (state : State) :
    (state.mentionTerm meaning.term).symbols.order <+:
      (executeEquate descriptor label meaning state).state.symbols.order := by
  rcases executeEquate_cases descriptor label meaning state with
    ⟨_, unlabelled⟩ | ⟨name, value, _, bound⟩
  · rewrite [unlabelled]
    exact List.prefix_refl _
  · rw [bound, State.symbols_bind]
    exact (SymbolTable.admits_assign _ name value).order_grows

/-- A reference from a statement has the number of its symbol in the table
after the statement, or else it is the target of a move and its symbol is not
in the table. -/
theorem Statement.reference_cases {statement : Statement} {state : State} {name : String}
    {index : Nat} {inner outer : List Record} (sound : state.symbols.Sound)
    (split : (statement.execute state).records = inner ++ .reference name index :: outer) :
    (∃ place, index = place + 1 ∧ (statement.execute state).state.symbols.order[place]? =
      some name) ∨
    (index = 0 ∧ ∃ mnemonic descriptor target,
      statement = .instruction mnemonic descriptor (.origin target) ∧ target.term = .symbol name ∧
      inner = [.ofDescriptor none descriptor] ∧ state.symbols.find? name = none) := by
  have member : .reference name index ∈ (statement.execute state).records := by
    rw [split]
    exact List.mem_append_right inner List.mem_cons_self
  cases statement with
  | instruction mnemonic descriptor operation =>
      rcases Operation.reference_mem_records_execute member with
        ⟨target, isOrigin, isSymbol, shown⟩ | ⟨label, meaning, isEquate, isSymbol, shown⟩
      · subst isOrigin
        rcases Record.ofReference_cases sound name with ⟨place, here, numbered⟩ | ⟨absent, numbered⟩
        · refine Or.inl ⟨place, ?_, ?_⟩
          · exact (Record.reference.inj (shown.trans numbered)).2
          · rw [execute, Operation.symbols_execute _ _ (by simp [Operation.role?]), here]
        · refine Or.inr ⟨?_, mnemonic, descriptor, target, rfl, isSymbol, ?_, absent⟩
          · exact (Record.reference.inj (shown.trans numbered)).2
          · exact Operation.front_of_origin split
      · subst isEquate
        rcases State.ofReference_mention sound name with ⟨place, here, numbered⟩
        have grows := Operation.order_grows_executeEquate descriptor label meaning state
        rw [isSymbol] at grows
        exact Or.inl ⟨place, (Record.reference.inj (shown.trans numbered)).2,
          SymbolTable.place_of_grows grows here⟩
  | reference other =>
      have shown : .reference name index =
          Record.ofReference (state.mention other).symbols other := by
        simpa [execute] using member
      rcases State.ofReference_mention sound other with ⟨place, here, numbered⟩
      rcases Record.reference.inj (shown.trans numbered) with ⟨sameName, sameIndex⟩
      exact Or.inl ⟨place, sameIndex, sameName ▸ here⟩
  | label other => simp [execute] at member
  | register word code => simp [execute] at member
  | condition word code => simp [execute] at member
  | constant digits => simp [execute] at member

/-- A reference leads to its own symbol in the last table, although it was
numbered while the table was still growing.  Only the target of a move can be
numbered zero, and only if its symbol was not in the table when the move was
carried out. -/
theorem reference_resolves (set : InstructionSet) (lines : List String) {place : Nat}
    {line : AssembledLine} {front back : List Record} {name : String} {index : Nat}
    (isLine : (assemble set lines).lines[place]? = some line)
    (split : line.records = front ++ .reference name index :: back) :
    (1 ≤ index →
      ((assemble set lines).symbols.toList.map Prod.fst)[index - 1]? = some name ∧
        (assemble set lines).symbols.index? name = some (index - 1)) ∧
    (index = 0 → ∃ source earlier mnemonic descriptor target later,
      lines[place]? = some source ∧
      Statement.ofLine set source =
        earlier ++ .instruction mnemonic descriptor (.origin target) :: later ∧
      descriptor.role = .origin ∧ target.term = .symbol name ∧
      let moment := Statement.executeAll (State.reached set (lines.take place)) earlier
      front = moment.records ++ [.ofDescriptor none descriptor] ∧
        moment.state.symbols.find? name = none) := by
  rw [getElem?_lines_assemble] at isLine
  rcases Option.map_eq_some_iff.mp isLine with ⟨source, isSource, sameLine⟩
  subst sameLine
  rcases Statement.exists_statement_of_record split with
    ⟨earlier, statement, later, inner, outer, isList, handsOn, isFront, _⟩
  have soundBefore := State.sound_reached set (lines.take place)
  have soundThen := Statement.sound_executeAll earlier soundBefore
  rcases Statement.reference_cases soundThen handsOn with
    ⟨position, isIndex, here⟩ |
      ⟨isZero, mnemonic, descriptor, target, isOrigin, isSymbol, isInner, absent⟩
  · subst isIndex
    refine ⟨fun _ => ?_, fun impossible => by cases impossible⟩
    have later : (assemble set lines).symbols.order[position]? = some name := by
      rw [symbols_assemble, State.reached_eq_run_of_statement isSource isList]
      exact SymbolTable.place_of_grows (State.order_grows_run set _ _)
        (SymbolTable.place_of_grows (Statement.order_grows_executeAll later _) here)
    have sound := sound_assemble set lines
    rw [Nat.add_sub_cancel, sound.map_fst_toList]
    exact ⟨later, sound.index?_eq_some_iff.mpr later⟩
  · refine ⟨fun positive => by omega, fun _ => ?_⟩
    subst isOrigin isInner
    refine ⟨source, earlier, mnemonic, descriptor, target, later, isSource, isList, ?_, isSymbol,
      isFront, absent⟩
    have member : .instruction mnemonic descriptor (.origin target) ∈
        Statement.ofLine set source := by
      rw [isList]
      exact List.mem_append_right earlier List.mem_cons_self
    exact Statement.descriptor_role_of_role? member rfl

/-- A forward reference is numbered before its label is seen, and a move to an
unknown symbol is numbered zero. -/
theorem reference_resolves_forward :
    (assemble .standard ["START 100", "A MOVER AREG B", "ORIGIN C", "B DS 1"]).symbols.index? "B" =
      some 1 ∧
    ∃ mnemonic descriptor target,
      .instruction mnemonic descriptor (.origin target) ∈ Statement.ofLine .standard "ORIGIN C" ∧
      target.term = .symbol "C" := by
  have isUse :
      (assemble .standard ["START 100", "A MOVER AREG B", "ORIGIN C", "B DS 1"]).lines[1]? =
        some ⟨2, [.label "A", .instruction (some ⟨100, by decide⟩) .imperative ⟨4⟩,
          .register ⟨1⟩] ++ .reference "B" 2 :: [], [], .running ⟨101, by decide⟩⟩ := by
    decide +kernel
  have isMove :
      (assemble .standard ["START 100", "A MOVER AREG B", "ORIGIN C", "B DS 1"]).lines[2]? =
        some ⟨3, [.instruction none .directive ⟨3⟩] ++ .reference "C" 0 :: [],
          [.unresolvedSymbol "C"], .running ⟨101, by decide⟩⟩ := by
    decide +kernel
  rcases (reference_resolves .standard _ isMove rfl).2 rfl with
    ⟨source, earlier, mnemonic, descriptor, target, later, isSource, isList, _, isSymbol, _⟩
  cases isSource
  refine ⟨((reference_resolves .standard _ isUse rfl).1 (by decide)).2, mnemonic, descriptor,
    target, ?_, isSymbol⟩
  rw [isList]
  exact List.mem_append_right earlier List.mem_cons_self

/-! ## The table rebuilt from the records -/

/-- Names that were seen before add nothing. -/
theorem eraseDups_append_of_seen {seen added : List String} (known : ∀ name ∈ added, name ∈ seen) :
    (seen ++ added).eraseDups = seen.eraseDups := by
  have nothing : added.removeAll seen = [] := by
    simpa [List.removeAll, List.filter_eq_nil_iff] using known
  rw [List.eraseDups_append, nothing, List.eraseDups_nil, List.append_nil]

/-- An operation that is no equation shows only symbols of the table. -/
theorem Operation.mem_order_of_name {mnemonic : String} {descriptor : Descriptor}
    {operation : Operation} {state : State} {name : String} (sound : state.symbols.Sound)
    (other : operation.role? ≠ some .equate)
    (member : name ∈ (operation.execute mnemonic descriptor state).records.filterMap Record.name?) :
    name ∈ state.symbols.order := by
  rcases List.mem_filterMap.mp member with ⟨record, inRecords, shows⟩
  rcases Record.name?_eq_some_iff.mp shows with isLabel | ⟨index, positive, isReference⟩
  · subst isLabel
    exact absurd inRecords (operation.label_not_mem_records_execute mnemonic descriptor state name)
  · subst isReference
    rcases reference_mem_records_execute inRecords with
      ⟨target, _, _, shown⟩ | ⟨label, meaning, isEquate, _, _⟩
    · rcases Record.ofReference_cases sound name with ⟨place, here, _⟩ | ⟨_, numbered⟩
      · exact List.mem_of_getElem? here
      · have isZero := (Record.reference.inj (shown.trans numbered)).2
        omega
    · subst isEquate
      exact absurd rfl other

/-- An equation shows the symbol of its term, which is then in the table; its
label is there already. -/
theorem Operation.order_executeEquate {descriptor : Descriptor} {label : Option String}
    {meaning : Expression} {state : State} {seen : List String} (sound : state.symbols.Sound)
    (ordered : state.symbols.order = seen.eraseDups)
    (grounded : ∀ name, label = some name → name ∈ seen) :
    (executeEquate descriptor label meaning state).state.symbols.order =
      (seen ++ (executeEquate descriptor label meaning state).records.filterMap
        Record.name?).eraseDups := by
  have mentioned : (state.mentionTerm meaning.term).symbols.order =
      (seen ++ (executeEquate descriptor label meaning state).records.filterMap
        Record.name?).eraseDups := by
    rw [records_executeEquate]
    cases meaning.term with
    | number numeral => exact ordered.trans (congrArg List.eraseDups (List.append_nil seen).symm)
    | symbol name =>
        rcases State.ofReference_mention sound name with ⟨place, _, numbered⟩
        have shown : [Record.ofDescriptor none descriptor,
            Record.ofTerm (state.mention name).symbols (.symbol name)].filterMap Record.name? =
              [name] := by
          rw [Record.ofTerm, numbered]
          rfl
        simp only [State.mentionTerm, shown]
        exact (state.symbols.admits_insertIfNew name .unresolved).order_eq_eraseDups sound ordered
  rcases executeEquate_cases descriptor label meaning state with
    ⟨_, unlabelled⟩ | ⟨name, value, isLabel, bound⟩
  · rw [unlabelled, mentioned]
  · have known : name ∈ state.symbols.order := by
      rw [ordered, List.mem_eraseDups]
      exact grounded name isLabel
    rcases Option.isSome_iff_exists.mp ((sound.mem_order_iff name).mp known) with ⟨old, found⟩
    have still := State.find?_mentionTerm found meaning.term
    rw [bound, State.symbols_bind, SymbolTable.order_assign, still, Option.isSome_some, if_pos rfl,
      mentioned]

/-- One statement: the table goes on to hold the names that the records show,
in the order of their first appearance. -/
theorem Statement.order_execute {statement : Statement} {state : State} {seen : List String}
    (sound : state.symbols.Sound) (ordered : state.symbols.order = seen.eraseDups)
    (grounded : ∀ name, statement.equated? = some name → name ∈ seen) :
    (statement.execute state).state.symbols.order =
      (seen ++ (statement.execute state).records.filterMap Record.name?).eraseDups := by
  have nothing : state.symbols.order = (seen ++ []).eraseDups := by rw [List.append_nil, ordered]
  cases statement with
  | instruction mnemonic descriptor operation =>
      by_cases equation : operation.role? = some .equate
      · cases operation with
        | equate label meaning => exact Operation.order_executeEquate sound ordered grounded
        | _ => cases equation
      · rw [execute, Operation.symbols_execute _ _ equation, ordered, eraseDups_append_of_seen]
        intro name member
        have known := Operation.mem_order_of_name sound equation member
        rwa [ordered, List.mem_eraseDups] at known
  | label name =>
      simp only [execute, State.symbols_bind]
      exact (state.symbols.admits_assign name _).order_eq_eraseDups sound ordered
  | reference name =>
      rcases State.ofReference_mention sound name with ⟨place, _, numbered⟩
      simp only [execute, numbered]
      exact (state.symbols.admits_insertIfNew name .unresolved).order_eq_eraseDups sound ordered
  | register word code => exact nothing
  | condition word code => exact nothing
  | constant digits => exact nothing

/-- The statements of a line.  The induction is from the end of the line,
because the label of an equation was shown by a statement before it. -/
theorem Statement.order_executeAll {statements : List Statement} {state : State}
    {seen : List String} (sound : state.symbols.Sound)
    (ordered : state.symbols.order = seen.eraseDups)
    (grounded : ∀ earlier statement later name, statements = earlier ++ statement :: later →
      statement.equated? = some name → .label name ∈ earlier) :
    (executeAll state statements).state.symbols.order =
      (seen ++ (executeAll state statements).records.filterMap Record.name?).eraseDups := by
  induction statements using List.reverseRecOn with
  | nil => exact ordered.trans (congrArg List.eraseDups (List.append_nil seen).symm)
  | append_singleton first last ih =>
      have before := ih (fun earlier statement later name split defines =>
        grounded earlier statement (later ++ [last]) name (by rw [split, List.append_assoc]; rfl)
          defines)
      have known : ∀ name, last.equated? = some name →
          name ∈ seen ++ (executeAll state first).records.filterMap Record.name? := by
        intro name defines
        have labelled := grounded first last [] name rfl defines
        have shown : .label name ∈ (executeAll state first).records :=
          label_mem_records_executeAll.mpr labelled
        exact List.mem_append_right seen (List.mem_filterMap.mpr ⟨.label name, shown, rfl⟩)
      have after := order_execute (sound_executeAll first sound) before known
      rw [executeAll_append]
      simp only [executeAll, List.append_nil, List.filterMap_append, ← List.append_assoc]
      exact after

theorem State.order_run {set : InstructionSet} {lines : List String} {state : State}
    {seen : List String} (sound : state.symbols.Sound)
    (ordered : state.symbols.order = seen.eraseDups) (number : Nat) :
    (run set state lines).symbols.order =
      (seen ++
        (((state.steps set number lines).map Step.line).flatMap AssembledLine.records).filterMap
        Record.name?).eraseDups := by
  induction lines generalizing state seen number with
  | nil => exact ordered.trans (congrArg List.eraseDups (List.append_nil seen).symm)
  | cons source rest ih =>
      have grounded : ∀ earlier statement later name,
          Statement.ofLine set source = earlier ++ statement :: later →
          statement.equated? = some name → .label name ∈ earlier :=
        fun _ _ _ _ => Statement.label_before_equation_ofLine
      have line := Statement.order_executeAll sound ordered grounded
      have later :=
        ih (Statement.sound_executeAll (Statement.ofLine set source) sound) line (number + 1)
      simp only [steps, List.map_cons, List.flatMap_cons, List.filterMap_append,
        ← List.append_assoc]
      exact later

/-- The names of the last table are those of the labels and of the numbered
references, in the order of their first appearance.  So a name is in the table
exactly if some record shows it. -/
theorem names_eq_eraseDups_records (set : InstructionSet) (lines : List String) :
    (((assemble set lines).lines.flatMap AssembledLine.records).filterMap Record.name?).eraseDups =
      (assemble set lines).symbols.toList.map Prod.fst ∧
    ∀ name, ((assemble set lines).symbols.find? name).isSome = true ↔
      ∃ line ∈ (assemble set lines).lines, .label name ∈ line.records ∨
        ∃ index, 1 ≤ index ∧ .reference name index ∈ line.records := by
  have rebuilt : (assemble set lines).symbols.order =
      (((assemble set lines).lines.flatMap AssembledLine.records).filterMap
        Record.name?).eraseDups := by
    have start : ({} : State).symbols.order = ([] : List String).eraseDups := rfl
    rw [symbols_assemble]
    exact State.order_run SymbolTable.sound_empty start 1
  have sound := sound_assemble set lines
  refine ⟨?_, ?_⟩
  · rw [sound.map_fst_toList, rebuilt]
  · intro name
    rw [← sound.mem_order_iff, rebuilt, List.mem_eraseDups, List.mem_filterMap]
    constructor
    · rintro ⟨record, member, shows⟩
      rcases List.mem_flatMap.mp member with ⟨line, inLines, inRecords⟩
      rcases Record.name?_eq_some_iff.mp shows with isLabel | ⟨index, positive, isReference⟩
      · exact ⟨line, inLines, Or.inl (isLabel ▸ inRecords)⟩
      · exact ⟨line, inLines, Or.inr ⟨index, positive, isReference ▸ inRecords⟩⟩
    · rintro ⟨line, inLines, labelled | ⟨index, positive, referred⟩⟩
      · exact ⟨.label name, List.mem_flatMap.mpr ⟨line, inLines, labelled⟩, rfl⟩
      · exact ⟨.reference name index, List.mem_flatMap.mpr ⟨line, inLines, referred⟩,
          Record.name?_eq_some_iff.mpr (Or.inr ⟨index, positive, rfl⟩)⟩

end FirstPass
