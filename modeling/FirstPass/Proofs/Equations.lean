import FirstPass.Proofs.Evaluation
import FirstPass.Proofs.Moves

namespace FirstPass

/-!
What a line with a label and an equation means.

The label is written twice.  It first gets the place of the location counter,
like any label.  Then the symbol of the expression is made known, and only
after that the expression is evaluated and the label gets its value.  So an
equation of a label with itself keeps the place of the counter, and an operand
that is new stands for an unresolved symbol.  If the expression cannot be read,
the second write does not happen, and if it has no value, the label becomes
unresolved.
-/

/-- The table in which the symbol of a term is known. -/
def SymbolTable.withTerm (table : SymbolTable) : Term → SymbolTable
  | .number _ => table
  | .symbol name => (table.insertIfNew name .unresolved).2

theorem State.symbols_mentionTerm (state : State) (term : Term) :
    (state.mentionTerm term).symbols = state.symbols.withTerm term := by
  cases term <;> rfl

namespace SymbolTable

/-- All symbols but one keep their values, and every symbol keeps its place. -/
structure KeepsBut (name : String) (before after : SymbolTable) : Prop where
  values : ∀ other value, other ≠ name → before.find? other = some value →
    after.find? other = some value
  places : ∀ other place, before.index? other = some place → after.index? other = some place

theorem KeepsBut.trans {name : String} {first second third : SymbolTable}
    (before : KeepsBut name first second) (after : KeepsBut name second third) :
    KeepsBut name first third where
  values := by
    intro other value different found
    exact after.values other value different (before.values other value different found)
  places := by
    intro other place placed
    exact after.places other place (before.places other place placed)

/-- Admitting a name moves no symbol. -/
theorem Admits.index? {before after : SymbolTable} {name : String}
    (admits : Admits before name after) {other : String} {place : Nat}
    (placed : before.index? other = some place) : after.index? other = some place := by
  rcases admits.order_grows with ⟨added, isOrder⟩
  unfold SymbolTable.index? List.idxOf? at placed ⊢
  rw [← isOrder, List.findIdx?_append, placed, Option.some_or]

theorem keepsBut_assign (table : SymbolTable) (name : String) (value : Symbol.Value) :
    KeepsBut name table (table.assign name value).2 where
  values := by
    intro other before different found
    rw [find?_assign, if_neg different, found]
  places := by
    intro other place placed
    exact (table.admits_assign name value).index? placed

/-- To make a symbol known changes no value. -/
theorem find?_withTerm {table : SymbolTable} {name : String} {value : Symbol.Value}
    (found : table.find? name = some value) (term : Term) :
    (table.withTerm term).find? name = some value := by
  have mentioned := @State.find?_mentionTerm ⟨table, .unstarted⟩ name value found term
  rw [State.symbols_mentionTerm] at mentioned
  exact mentioned

theorem keepsBut_withTerm (name : String) (table : SymbolTable) (term : Term) :
    KeepsBut name table (table.withTerm term) where
  values := by
    intro other value _ found
    exact find?_withTerm found term
  places := by
    intro other place placed
    cases term with
    | number numeral => exact placed
    | symbol mentioned => exact (table.admits_insertIfNew mentioned .unresolved).index? placed

end SymbolTable

theorem State.fst_bind (state : State) (name : String) (value : Symbol.Value) :
    (state.bind name value).1 = { state with symbols := (state.symbols.assign name value).2 } := by
  unfold bind
  rcases state.symbols.assign name value with ⟨_ | before, symbols⟩ <;> rfl

/-! ## The statements of the line -/

theorem Operation.operands_of_read_all {mnemonic : String} {rest : List Token}
    (whole : (Expression.read mnemonic rest).rest = []) (label : Option String) :
    (read mnemonic .equate label rest).operands = rest := by
  have taken := Expression.taken_append_rest mnemonic rest
  rw [whole, List.append_nil] at taken
  rw [read, operands_readExpression_eq_taken mnemonic (fun _ => rfl), taken]

namespace Statement

/-- A label and an equation that takes all tokens after it are two statements. -/
theorem readAll_equation {set : InstructionSet} {label mnemonic : Token} {descriptor : Descriptor}
    {rest : List Token} (free : set.Lacks label.text) (notNumber : label.isNumber = false)
    (known : set.instruction? mnemonic.text = some descriptor) (equates : descriptor.role = .equate)
    (whole : (Expression.read mnemonic.text rest).rest = []) :
    readAll set none (label :: mnemonic :: rest) =
      [.label label.text, .instruction mnemonic.text descriptor
        (Operation.read mnemonic.text .equate (some label.text) rest)] := by
  have taken := Operation.operands_of_read_all whole (some label.text)
  rw [readAll, read_of_lacks free]
  simp only [notNumber, List.isEmpty_cons, Bool.false_eq_true, if_false, operands, List.length_nil,
    List.drop_zero, label?, Option.some_or]
  rw [readAll, read_of_instruction? known, equates]
  simp only [operands, taken, List.drop_length, readAll]

end Statement

/-! ## What the second statement does -/

theorem Operation.execute_read_equate_of_error {mnemonic : String} {descriptor : Descriptor}
    {rest : List Token} {fault : Fault}
    (failed : (Expression.read mnemonic rest).outcome = .error fault) (label : Option String)
    (state : State) :
    (read mnemonic .equate label rest).execute mnemonic descriptor state =
      { state, records := [.ofDescriptor none descriptor], faults := [fault] } := by
  simp only [read, readExpression, failed, execute]

theorem Operation.execute_read_equate_of_ok {mnemonic : String} {descriptor : Descriptor}
    {rest : List Token} {meaning : Expression}
    (parsed : (Expression.read mnemonic rest).outcome = .ok meaning) (label : Option String)
    (state : State) :
    (read mnemonic .equate label rest).execute mnemonic descriptor state =
      executeEquate descriptor label meaning state := by
  simp only [read, readExpression, parsed, execute]

theorem Operation.executeEquate_evaluates (descriptor : Descriptor) (name : String)
    (meaning : Expression) (state : State) :
    let known := state.symbols.withTerm meaning.term
    let effect := executeEquate descriptor (some name) meaning state
    (∃ value, meaning.Evaluates known (.ok value) ∧ effect.faults = [] ∧
      effect.state.symbols = (known.assign name value).2) ∨
    ∃ fault, meaning.Evaluates known (.error fault) ∧ effect.faults = [.ofArithmetic fault] ∧
      effect.state.symbols = (known.assign name .unresolved).2 := by
  intro known effect
  have isKnown : (state.mentionTerm meaning.term).symbols = known :=
    state.symbols_mentionTerm meaning.term
  have same := state.evaluate_mentionTerm meaning
  rw [isKnown] at same
  rcases executeEquate_labelled descriptor name meaning state with
    ⟨value, evaluated, quiet, bound⟩ | ⟨fault, failed, reported, bound⟩
  · refine Or.inl ⟨value, Expression.evaluates_iff.mpr (same.trans evaluated), quiet, ?_⟩
    rw [bound, State.symbols_bind, isKnown]
  · refine Or.inr ⟨fault, Expression.evaluates_iff.mpr (same.trans failed), reported, ?_⟩
    rw [bound, State.symbols_bind, isKnown]

/-- The line has the effect of its equation, after its label. -/
theorem State.step_equation {set : InstructionSet} {source mnemonic : String} {label : Token}
    {descriptor : Descriptor} {rest : List Token}
    (tokens : Token.scan source = label :: ⟨mnemonic⟩ :: rest) (free : set.Lacks label.text)
    (notNumber : label.isNumber = false) (known : set.instruction? mnemonic = some descriptor)
    (equates : descriptor.role = .equate) (whole : (Expression.read mnemonic rest).rest = [])
    (state : State) (number : Nat) {effect : Effect}
    (isEffect : (Operation.read mnemonic .equate (some label.text) rest).execute mnemonic descriptor
      { state with symbols := (state.symbols.assign label.text (.ofPlace state.counter.value)).2 } =
      effect) :
    (state.step set number source).state = effect.state ∧
      (state.step set number source).line.faults = effect.faults := by
  have labelled : ((Statement.label label.text).execute state).state =
      { state with
        symbols := (state.symbols.assign label.text (.ofPlace state.counter.value)).2 } :=
    state.fst_bind label.text (.ofPlace state.counter.value)
  rw [State.step, Statement.ofLine, tokens, ← isEffect, ← labelled,
    Statement.readAll_equation free notNumber known equates whole]
  exact ⟨rfl, List.append_nil _⟩

/-- A line of a label and an equation that takes all tokens after it, in any
state.  The counter stays where it is.  The label first gets the place of the
counter, which is all that is left of the line if the expression cannot be
read.  Otherwise the symbol of the expression is made known, the expression is
evaluated in this table, in which the label has the place of the counter, and
the label gets the value; or it becomes unresolved, with a fault, if the
arithmetic fails.  All other symbols keep their values and every symbol its
place. -/
theorem equation_meaning (state : State) (number : Nat) {source : String} {label : Token}
    {rest : List Token} (tokens : Token.scan source = label :: ⟨"EQU"⟩ :: rest)
    (free : InstructionSet.standard.Lacks label.text) (notNumber : label.isNumber = false)
    (whole : (Expression.read "EQU" rest).rest = []) :
    let step := state.step .standard number source
    let place := Symbol.Value.ofPlace state.counter.value
    let labelled := (state.symbols.assign label.text place).2
    step.state.counter = state.counter ∧
    (∀ fault, (Expression.read "EQU" rest).outcome = .error fault →
      step.line.faults = [fault] ∧ step.state.symbols = labelled) ∧
    (∀ meaning, (Expression.read "EQU" rest).outcome = .ok meaning →
      let known := labelled.withTerm meaning.term
      known.find? label.text = some place ∧
      ((∃ value, meaning.Evaluates known (.ok value) ∧ step.line.faults = [] ∧
          step.state.symbols = (known.assign label.text value).2) ∨
        ∃ fault, meaning.Evaluates known (.error fault) ∧ step.line.faults = [.ofArithmetic fault] ∧
          step.state.symbols = (known.assign label.text .unresolved).2)) ∧
    state.symbols.KeepsBut label.text step.state.symbols := by
  intro step place labelled
  have known : InstructionSet.standard.instruction? "EQU" = some ⟨⟨4⟩, .directive, .equate⟩ := by
    decide +kernel
  have kept : state.symbols.KeepsBut label.text labelled :=
    state.symbols.keepsBut_assign label.text place
  cases outcome : (Expression.read "EQU" rest).outcome with
  | error fault =>
      have effect := State.step_equation tokens free notNumber known rfl whole state number
        (Operation.execute_read_equate_of_error outcome (some label.text) _)
      have isState : step.state = ⟨labelled, state.counter⟩ := effect.1
      refine ⟨by rw [isState], ?_, ?_, by rw [isState]; exact kept⟩
      · intro other isFault
        cases isFault
        exact ⟨effect.2, by rw [isState]⟩
      · intro meaning isMeaning
        cases isMeaning
  | ok meaning =>
      have effect := State.step_equation tokens free notNumber known rfl whole state number
        (Operation.execute_read_equate_of_ok outcome (some label.text) _)
      have found : labelled.find? label.text = some place := by
        rw [SymbolTable.find?_assign, if_pos rfl]
      have mentioned := kept.trans (labelled.keepsBut_withTerm label.text meaning.term)
      have evaluated :=
        Operation.executeEquate_evaluates ⟨⟨4⟩, .directive, .equate⟩ label.text meaning
        ⟨labelled, state.counter⟩
      rw [effect.1, effect.2]
      refine ⟨Operation.counter_executeEquate _ _ meaning _, ?_, ?_, ?_⟩
      · intro fault isFault
        cases isFault
      · intro other isMeaning
        cases isMeaning
        refine ⟨SymbolTable.find?_withTerm found meaning.term, ?_⟩
        rcases evaluated with ⟨value, evaluates, quiet, bound⟩ | ⟨fault, evaluates, reported, bound⟩
        · exact Or.inl ⟨value, evaluates, quiet, bound⟩
        · exact Or.inr ⟨fault, evaluates, reported, bound⟩
      · rcases evaluated with ⟨value, _, _, bound⟩ | ⟨fault, _, _, bound⟩
        · rw [bound]
          exact mentioned.trans (SymbolTable.keepsBut_assign _ label.text value)
        · rw [bound]
          exact mentioned.trans (SymbolTable.keepsBut_assign _ label.text .unresolved)

/-- The expression uses the place that the label has just got, and a symbol that
was only used stays first and unresolved. -/
theorem equation_meaning_of_itself :
    let step := (State.reached .standard ["START 100", "ADD M"]).step .standard 3 "L EQU L + 2"
    step.state.counter = .running ⟨101, by decide⟩ ∧ step.line.faults = [] ∧
    step.state.symbols.find? "L" = some (.address ⟨103, by decide⟩) ∧
    step.state.symbols.find? "M" = some .unresolved ∧ step.state.symbols.index? "M" = some 0 := by
  let before : State := ⟨⟨["M"], ⟨[("M", .unresolved)]⟩⟩, .running ⟨101, by decide⟩⟩
  have reached : State.reached .standard ["START 100", "ADD M"] = before := by decide +kernel
  have free : InstructionSet.standard.Lacks "L" :=
    InstructionSet.lacks_of_not_mem (by decide +kernel)
  have tokens : Token.scan "L EQU L + 2" = [⟨"L"⟩, ⟨"EQU"⟩, ⟨"L"⟩, ⟨"+"⟩, ⟨"2"⟩] := by
    decide +kernel
  rw [reached]
  intro step
  rcases equation_meaning before 3 tokens free (by decide) rfl with ⟨still, _, equated, kept⟩
  have mentioned := kept.values "M" .unresolved (by decide) (by decide)
  have placed := kept.places "M" 0 (by decide)
  rcases equated ⟨.symbol "L", some (.add, ⟨"2", ⟨2, by decide⟩⟩)⟩ (by decide +kernel) with
    ⟨found, ⟨value, evaluates, quiet, bound⟩ | ⟨fault, evaluates, _, _⟩⟩
  · have isValue : value = .address ⟨103, by decide⟩ :=
      Except.ok.inj (evaluates.evaluate_eq.symm.trans (by decide +kernel))
    refine ⟨still, quiet, ?_, mentioned, placed⟩
    rw [bound, SymbolTable.find?_assign, if_pos rfl, isValue]
  · have failed := evaluates.evaluate_eq
    revert failed
    cases fault <;> decide +kernel

end FirstPass
