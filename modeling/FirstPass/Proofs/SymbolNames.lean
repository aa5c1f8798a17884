import FirstPass.Proofs.Classification
import FirstPass.Proofs.Values
import FirstPass.Proofs.Vocabulary
import FirstPass.Proofs.Words

namespace FirstPass

/-!
The names of symbols.

A name comes into the symbol table by a label, by a reference, or by an equation
that mentions it.  Labels and references are words without any other meaning.
An equation is less particular: its expression takes every word for a symbol that
is no number, so a mnemonic, a register or a condition can come into the table
there.  But it can be no label, and so it never gets a value.
-/

/-! ## How a name comes into the table -/

theorem State.find?_mentionTerm_of_none {state : State} {term : Term} {name : String}
    (other : term ≠ .symbol name) (absent : state.symbols.find? name = none) :
    (state.mentionTerm term).symbols.find? name = none := by
  cases term with
  | number numeral => exact absent
  | symbol mentioned =>
      have different : name ≠ mentioned := fun same => other (same ▸ rfl)
      exact ((state.symbols.admits_insertIfNew mentioned .unresolved).others name different).trans
        absent

namespace Statement

/-- A statement brings a name into the symbol table, unless it is there. -/
inductive Brings : Statement → String → Prop
  | label (name : String) : Brings (.label name) name
  | reference (name : String) : Brings (.reference name) name
  | defined {mnemonic : String} {descriptor : Descriptor} {name : String} {meaning : Expression} :
      Brings (.instruction mnemonic descriptor (.equate (some name) meaning)) name
  | mentioned {mnemonic : String} {descriptor : Descriptor} {label : Option String} {name : String}
      {meaning : Expression} (isTerm : meaning.term = .symbol name) :
      Brings (.instruction mnemonic descriptor (.equate label meaning)) name

/-- A statement adds no name that it does not bring in. -/
theorem find?_execute_of_none {statement : Statement} {state : State} {name : String}
    (other : ¬ statement.Brings name) (absent : state.symbols.find? name = none) :
    (statement.execute state).state.symbols.find? name = none := by
  cases statement with
  | instruction mnemonic descriptor operation =>
      cases operation with
      | equate label meaning =>
          have notMentioned :=
            State.find?_mentionTerm_of_none (fun isTerm => other (.mentioned isTerm)) absent
          simp only [execute, Operation.execute]
          rcases Operation.executeEquate_cases descriptor label meaning state with
            ⟨_, unlabelled⟩ | ⟨defined, given, isLabel, bound⟩
          · rw [unlabelled, notMentioned]
          · have different : name ≠ defined := by
              rintro rfl
              exact other (isLabel ▸ .defined)
            rw [bound, State.symbols_bind, SymbolTable.find?_assign, if_neg different, notMentioned]
      | _ => rw [execute, Operation.symbols_execute _ _ (by simp [Operation.role?]), absent]
  | label defined =>
      have different : name ≠ defined := fun same => other (same ▸ .label name)
      simp only [execute, State.symbols_bind]
      rw [SymbolTable.find?_assign, if_neg different, absent]
  | reference mentioned =>
      have different : Term.symbol mentioned ≠ .symbol name := by
        intro same
        cases same
        exact other (.reference name)
      exact State.find?_mentionTerm_of_none different absent
  | register word code => exact absent
  | condition word code => exact absent
  | constant digits => exact absent

end Statement

/-- Every name of the table was brought in by a statement of the program. -/
theorem State.exists_brings {set : InstructionSet} {lines : List String} {name : String}
    (present : (reached set lines).symbols.find? name ≠ none) :
    ∃ source ∈ lines, ∃ statement ∈ Statement.ofLine set source, statement.Brings name := by
  by_contra nowhere
  apply present
  refine run_induction (fun state => state.symbols.find? name = none) ?_ rfl
  intro source inLines state absent
  refine Statement.executeAll_induction (fun state => state.symbols.find? name = none) ?_ absent
  intro statement inLine state
  exact Statement.find?_execute_of_none fun brings =>
    nowhere ⟨source, inLines, statement, inLine, brings⟩

/-! ## Which words a line has -/

theorem Role.eq_of_ofMnemonic_eq_equate {mnemonic : String}
    (isEquation : ofMnemonic mnemonic = .equate) : mnemonic = "EQU" := by
  by_contra different
  unfold ofMnemonic at isEquation
  rw [if_neg different] at isEquation
  repeat' split at isEquation
  all_goals cases isEquation

namespace Statement

/-- A label or a reference is a word without any other meaning. -/
theorem word_of_mem_readAll {set : InstructionSet} {label : Option String} {tokens : List Token}
    {statement : Statement} {name : String} (member : statement ∈ readAll set label tokens)
    (isWord : statement = .label name ∨ statement = .reference name) :
    ⟨name⟩ ∈ tokens ∧ set.Lacks name ∧ (Token.mk name).isNumber = false := by
  have inTokens : statement.head ∈ tokens := (tokens_infix_of_mem member).subset List.mem_cons_self
  rcases exists_read_of_mem_readAll member with ⟨nearest, token, rest, wasRead⟩
  rcases read_cases set nearest token rest with
    ⟨_, _, isRead⟩ | ⟨_, _, _, isRead⟩ | ⟨_, _, _, _, isRead⟩ | ⟨_, _, isRead⟩ |
      ⟨lacks, notNumber, isRead⟩
  · simp [wasRead, isRead] at isWord
  · simp [wasRead, isRead] at isWord
  · simp [wasRead, isRead] at isWord
  · simp [wasRead, isRead] at isWord
  · have same : token.text = name := by
      rw [wasRead, isRead] at isWord
      split at isWord
      · simpa using isWord
      · simpa using isWord
    subst same
    rw [wasRead, head_read] at inTokens
    exact ⟨inTokens, lacks, notNumber⟩

theorem lacks_of_label_mem {set : InstructionSet} {source name : String}
    (member : .label name ∈ ofLine set source) : set.Lacks name :=
  (word_of_mem_readAll member (Or.inl rfl)).2.1

/-- The symbol that an equation mentions stands after the word `EQU`. -/
theorem equation_infix_of_mem {set : InstructionSet} (built : set.Built) {label : Option String}
    {tokens : List Token} {mnemonic : String} {descriptor : Descriptor} {defined : Option String}
    {meaning : Expression} {name : String}
    (member : .instruction mnemonic descriptor (.equate defined meaning) ∈ readAll set label tokens)
    (isTerm : meaning.term = .symbol name) :
    [⟨"EQU"⟩, ⟨name⟩] <:+: tokens ∧ (Token.mk name).isNumber = false := by
  rcases read_of_instruction_mem_readAll member with ⟨known, nearest, rest, wasRead⟩
  have isEquation : Role.ofMnemonic mnemonic = .equate :=
    (built.role_eq known).symm.trans (descriptor_role_of_role? member rfl)
  have isEqu := Role.eq_of_ofMnemonic_eq_equate isEquation
  have names : (Operation.read mnemonic descriptor.role nearest rest).symbol? = some name := by
    rw [← wasRead, Operation.symbol?, isTerm, Term.symbol?]
  have front : [⟨"EQU"⟩, ⟨name⟩] <+: ⟨mnemonic⟩ :: meaning.tokens := by
    rw [isEqu, Expression.tokens, isTerm]
    exact ⟨_, rfl⟩
  rcases Operation.eq_cons_of_symbol?_read names with ⟨_, _, notNumber⟩
  exact ⟨front.isInfix.trans (tokens_infix_of_mem member), notNumber⟩

/-- A name that a line brings in is one of its words, and no number.  It either
has no other meaning or stands after the word `EQU`. -/
theorem word_of_brings {set : InstructionSet} (built : set.Built) {source : String}
    {statement : Statement} {name : String} (member : statement ∈ ofLine set source)
    (brings : statement.Brings name) :
    ⟨name⟩ ∈ Token.scan source ∧ (Token.mk name).isNumber = false ∧
      (set.Lacks name ∨ [⟨"EQU"⟩, ⟨name⟩] <:+: Token.scan source) := by
  cases brings with
  | label =>
      rcases word_of_mem_readAll member (Or.inl rfl) with ⟨inLine, lacks, notNumber⟩
      exact ⟨inLine, notNumber, Or.inl lacks⟩
  | reference =>
      rcases word_of_mem_readAll member (Or.inr rfl) with ⟨inLine, lacks, notNumber⟩
      exact ⟨inLine, notNumber, Or.inl lacks⟩
  | defined =>
      -- The label that an equation defines is a statement of its own on the line.
      rcases word_of_mem_readAll (label_mem_ofLine member rfl) (Or.inl rfl) with
        ⟨inLine, lacks, notNumber⟩
      exact ⟨inLine, notNumber, Or.inl lacks⟩
  | mentioned isTerm =>
      rcases equation_infix_of_mem built member isTerm with ⟨inLine, notNumber⟩
      exact ⟨inLine.subset (by simp), notNumber, Or.inr inLine⟩

end Statement

/-- What may become a symbol.  Every name in the table is a word and no number, and
no label has a name that the instruction set gives a meaning.  Where the table has
such a name, the name stands after the word `EQU` on some line, and it is
unresolved. -/
theorem symbols_are_words {set : InstructionSet} (built : set.Built) (lines : List String) :
    (∀ name value, (assemble set lines).symbols.find? name = some value →
      Token.Solid name.toList ∧ ¬ ∀ c ∈ name.toList, c.isDigit = true) ∧
    (∀ line ∈ (assemble set lines).lines, ∀ name, .label name ∈ line.records → set.Lacks name) ∧
    ∀ name value, (assemble set lines).symbols.find? name = some value → ¬ set.Lacks name →
      value = .unresolved ∧ ∃ source ∈ lines, [⟨"EQU"⟩, ⟨name⟩] <:+: Token.scan source := by
  have origin : ∀ name value, (assemble set lines).symbols.find? name = some value →
      ∃ source ∈ lines, ⟨name⟩ ∈ Token.scan source ∧ (Token.mk name).isNumber = false ∧
        (set.Lacks name ∨ [⟨"EQU"⟩, ⟨name⟩] <:+: Token.scan source) := by
    intro name value found
    rw [symbols_assemble] at found
    have present : (State.reached set lines).symbols.find? name ≠ none := by simp [found]
    rcases State.exists_brings present with ⟨source, inLines, statement, inLine, brings⟩
    exact ⟨source, inLines, Statement.word_of_brings built inLine brings⟩
  have labels : ∀ line ∈ (assemble set lines).lines, ∀ name, .label name ∈ line.records →
      set.Lacks name := by
    intro line isLine name labelled
    rcases List.getElem?_of_mem isLine with ⟨place, isAt⟩
    rw [getElem?_lines_assemble] at isAt
    rcases Option.map_eq_some_iff.mp isAt with ⟨source, _, sameLine⟩
    subst sameLine
    exact Statement.lacks_of_label_mem (Statement.label_mem_records_executeAll.mp labelled)
  refine ⟨?_, labels, ?_⟩
  · intro name value found
    rcases origin name value found with ⟨source, _, inSource, notNumber, _⟩
    have solid := Token.solid_of_mem_scan inSource
    refine ⟨solid, ?_⟩
    intro digits
    have isNumber : (Token.mk name).isNumber = true := by
      rw [Token.isNumber, Bool.and_eq_true, List.all_eq_true]
      exact ⟨by simpa using solid.nonempty, digits⟩
    rw [notNumber] at isNumber
    cases isNumber
  · intro name value found meaningful
    rcases origin name value found with ⟨source, inLines, _, _, lacks | inSource⟩
    · exact absurd lacks meaningful
    · refine ⟨?_, source, inLines, inSource⟩
      have same : (State.reached set lines).symbols.value name = .unresolved :=
        State.value_run 1 fun line isLine labelled => meaningful (labels line isLine name labelled)
      rw [symbols_assemble] at found
      exact (SymbolTable.value_of_find? found).symm.trans same

/-- The register `INDEX` becomes a symbol by an equation, and the only label is
`X`. -/
theorem symbols_are_words_equated :
    let set := InstructionSet.standard.defineAll [.register "INDEX" 5]
    let lines := ["X EQU INDEX", "ADD AREG X"]
    (assemble set lines).symbols.find? "INDEX" = some .unresolved ∧ ¬ set.Lacks "INDEX" ∧
      (∃ source ∈ lines, [⟨"EQU"⟩, ⟨"INDEX"⟩] <:+: Token.scan source) ∧
      (assemble set lines).symbols.find? "X" = some .unresolved ∧ Token.Solid "X".toList ∧
        set.Lacks "X" := by
  intro set lines
  rcases symbols_are_words (InstructionSet.built_standard.defineAll [.register "INDEX" 5])
    lines with
    ⟨words, labels, meaningful⟩
  have found : (assemble set lines).symbols.find? "INDEX" = some .unresolved := by
    decide +kernel
  have foundLabel : (assemble set lines).symbols.find? "X" = some .unresolved := by
    decide +kernel
  have isRegister : ¬ set.Lacks "INDEX" := fun lacks => absurd lacks.register (by decide +kernel)
  have lacksLabel : set.Lacks "X" := by
    have labelled : ∃ line ∈ (assemble set lines).lines, .label "X" ∈ line.records := by
      decide +kernel
    rcases labelled with ⟨line, isLine, isLabel⟩
    exact labels line isLine "X" isLabel
  exact ⟨found, isRegister, (meaningful "INDEX" .unresolved found isRegister).2, foundLabel,
    (words "X" .unresolved foundLabel).1, lacksLabel⟩

end FirstPass
