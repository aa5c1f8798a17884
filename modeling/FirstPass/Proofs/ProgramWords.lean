import FirstPass.Proofs.SymbolNames

namespace FirstPass

/-!
The words of a program in its report.

A report repeats words of the program: constants and names in the records,
mnemonics, operands, operators and names in the faults, and names in the symbol
table.  Each of them is a word of the line that it comes from.  Apart from these,
a fault says nothing but fixed wording, which includes what an operand should have
been.
-/

/-- The words of the program that a record keeps. -/
def Record.words : Record → List String
  | .constant digits => [digits]
  | .reference name _ | .label name => [name]
  | .instruction _ _ _ | .register _ | .condition _ => []

/-- A record keeps at most the word of the token that it classifies. -/
theorem Record.Classifies.word_eq {set : InstructionSet} {token : Token} {record : Record}
    (classified : record.Classifies set token) {word : String} (isWord : word ∈ record.words) :
    word = token.text := by
  cases classified with
  | constant => exact List.mem_singleton.mp isWord
  | label => exact List.mem_singleton.mp isWord
  | reference => exact List.mem_singleton.mp isWord
  | instruction => cases isWord
  | register => cases isWord
  | condition => cases isWord

theorem Shows.exists_token {set : InstructionSet} {tokens : List Token} {records : List Record}
    {omitted : List Bool} (shows : Shows set tokens records omitted) {record : Record}
    (member : record ∈ records) : ∃ token ∈ tokens, record.Classifies set token := by
  induction shows with
  | nil => cases member
  | @shown token first _ _ _ classified _ ih =>
      rcases List.mem_cons.mp member with isFirst | later
      · exact ⟨token, List.mem_cons_self, isFirst ▸ classified⟩
      · rcases ih later with ⟨other, inRest, isOther⟩
        exact ⟨other, List.mem_cons_of_mem token inRest, isOther⟩
  | omitted token _ ih =>
      rcases ih member with ⟨other, inRest, isOther⟩
      exact ⟨other, List.mem_cons_of_mem token inRest, isOther⟩

namespace Fault

/-- The words of the program that a fault speaks of. -/
def words : Fault → List String
  | .counterUnstarted mnemonic | .afterEnd mnemonic | .missingOperand mnemonic _ => [mnemonic]
  | .unresolvedSymbol name | .unplacedSymbol name => [name]
  | .badOperand mnemonic operand => [mnemonic, operand]
  | .unknownOperator text => [text]
  | .divisionByZero | .addressOutOfRange | .missingLabel => []

/-- What a mnemonic can lack. -/
def expectations : List String :=
  ["a starting address", "a word count", "an address expression", "an operand after the operator"]

/-- What a fault says that a mnemonic lacks. -/
def expected? : Fault → Option String
  | .missingOperand _ expected => some expected
  | _ => none

/-- A fault speaks of no words but those of the given tokens. -/
structure SpeaksOf (fault : Fault) (tokens : List Token) : Prop where
  words : ∀ word ∈ fault.words, ⟨word⟩ ∈ tokens
  expected : ∀ expected ∈ fault.expected?, expected ∈ expectations

variable {mnemonic : String} {tokens : List Token}

theorem SpeaksOf.mono {fault : Fault} {more : List Token} (speaks : fault.SpeaksOf tokens)
    (within : tokens ⊆ more) : fault.SpeaksOf more where
  words := fun word isWord => within (speaks.words word isWord)
  expected := speaks.expected

theorem speaksOf_ofRefusal (member : ⟨mnemonic⟩ ∈ tokens) (refusal : LocationCounter.Refusal) :
    (ofRefusal mnemonic refusal).SpeaksOf tokens := by
  cases refusal <;> exact ⟨by simp [ofRefusal, words, member], by simp [ofRefusal, expected?]⟩

theorem speaksOf_ofArithmetic (fault : ArithmeticFault) : (ofArithmetic fault).SpeaksOf tokens := by
  cases fault <;> exact ⟨by simp [ofArithmetic, words], by simp [ofArithmetic, expected?]⟩

theorem speaksOf_missingOperand (member : ⟨mnemonic⟩ ∈ tokens) {expected : String}
    (known : expected ∈ expectations) : (missingOperand mnemonic expected).SpeaksOf tokens :=
  ⟨by simpa [words] using member, by simpa [expected?] using known⟩

theorem speaksOf_badOperand (member : ⟨mnemonic⟩ ∈ tokens) {operand : Token}
    (memberOperand : operand ∈ tokens) : (badOperand mnemonic operand.text).SpeaksOf tokens :=
  ⟨by simpa [words] using ⟨member, memberOperand⟩, by simp [expected?]⟩

end Fault

/-! ## Faults of reading -/

theorem Numeral.fault_of_read {mnemonic : String} {token : Token} {fault : Fault}
    (failed : Numeral.read mnemonic token = .error fault) :
    fault = .badOperand mnemonic token.text := by
  unfold Numeral.read at failed
  split at failed
  · cases failed
  · exact (Except.error.inj failed).symm

theorem Term.fault_of_read {mnemonic : String} {token : Token} {fault : Fault}
    (failed : Term.read mnemonic token = .error fault) :
    fault = .badOperand mnemonic token.text := by
  unfold Term.read at failed
  split at failed
  · cases reading : Numeral.read mnemonic token with
    | ok numeral => simp [reading, Except.map] at failed
    | error cause =>
        simp only [reading, Except.map, Except.error.injEq] at failed
        rw [← failed]
        exact Numeral.fault_of_read reading
  · cases failed

namespace Expression

theorem speaksOf_readArithmetic {mnemonic : String} {term : Term} {first : Token}
    {rest : List Token} {fault : Fault}
    (failed : (readArithmetic mnemonic term first rest).outcome = .error fault) :
    fault.SpeaksOf (⟨mnemonic⟩ :: (readArithmetic mnemonic term first rest).taken) := by
  unfold readArithmetic at failed ⊢
  split at failed
  · cases failed
  · rename_i sign
    cases known : Operator.ofSymbol? sign.text with
    | none => simp [known] at failed
    | some operator =>
        simp only [known, Except.error.injEq] at failed ⊢
        rw [← failed]
        exact Fault.speaksOf_missingOperand List.mem_cons_self (by decide)
  · rename_i sign second later
    cases known : Operator.ofSymbol? sign.text with
    | some operator =>
        cases operand : Numeral.read mnemonic second with
        | ok numeral => simp [known, operand, Except.map] at failed
        | error cause =>
            simp only [known, operand, Except.map, Except.error.injEq] at failed ⊢
            rw [← failed, Numeral.fault_of_read operand]
            exact Fault.speaksOf_badOperand List.mem_cons_self (by simp)
    | none =>
        by_cases number : second.isNumber
        · simp only [known, number, if_true, Except.error.injEq] at failed ⊢
          rw [← failed]
          exact ⟨by simp [Fault.words], by simp [Fault.expected?]⟩
        · simp [known, number] at failed

/-- If an expression cannot be read, then the fault is about the tokens that were
taken. -/
theorem speaksOf_read {mnemonic : String} {tokens : List Token} {fault : Fault}
    (failed : (read mnemonic tokens).outcome = .error fault) :
    fault.SpeaksOf (⟨mnemonic⟩ :: (read mnemonic tokens).taken) := by
  cases tokens with
  | nil =>
      cases failed
      exact Fault.speaksOf_missingOperand List.mem_cons_self (by decide)
  | cons first rest =>
      cases reading : Term.read mnemonic first with
      | error cause =>
          simp only [read, reading, Except.error.injEq] at failed ⊢
          rw [← failed, Term.fault_of_read reading]
          exact Fault.speaksOf_badOperand List.mem_cons_self (by simp)
      | ok term =>
          simp only [read, reading] at failed ⊢
          exact speaksOf_readArithmetic failed

end Expression

namespace Operation

variable {mnemonic : String} {operands : List Token} {fault : Fault}

theorem speaksOf_readNumeral {expected : String} (known : expected ∈ Fault.expectations)
    {operation : Numeral → Operation} {role : Role}
    (asks : ∀ numeral, (operation numeral).role? = some role) {rest : List Token}
    (failed : readNumeral mnemonic expected operation rest = .malformed operands fault) :
    fault.SpeaksOf (⟨mnemonic⟩ :: operands) := by
  cases rest with
  | nil =>
      cases failed
      exact Fault.speaksOf_missingOperand List.mem_cons_self known
  | cons operand rest =>
      cases reading : Numeral.read mnemonic operand with
      | ok numeral =>
          simp only [readNumeral, reading] at failed
          cases (asks numeral).symm.trans (congrArg role? failed)
      | error cause =>
          simp only [readNumeral, reading] at failed
          cases failed
          rw [Numeral.fault_of_read reading]
          exact Fault.speaksOf_badOperand List.mem_cons_self (by simp)

theorem speaksOf_readExpression {operation : Expression → Operation} {role : Role}
    (asks : ∀ expression, (operation expression).role? = some role) {rest : List Token}
    (failed : readExpression mnemonic operation rest = .malformed operands fault) :
    fault.SpeaksOf (⟨mnemonic⟩ :: operands) := by
  cases reading : (Expression.read mnemonic rest).outcome with
  | ok expression =>
      simp only [readExpression, reading] at failed
      cases (asks expression).symm.trans (congrArg role? failed)
  | error cause =>
      simp only [readExpression, reading] at failed
      cases failed
      exact Expression.speaksOf_read reading

/-- Operands that could not be read are what their fault is about. -/
theorem speaksOf_of_read_eq_malformed {role : Role} {label : Option String} {rest : List Token}
    (failed : read mnemonic role label rest = .malformed operands fault) :
    fault.SpeaksOf (⟨mnemonic⟩ :: operands) := by
  cases role with
  | start => exact speaksOf_readNumeral (by decide) (fun _ => rfl) failed
  | reserve => exact speaksOf_readNumeral (by decide) (fun _ => rfl) failed
  | origin => exact speaksOf_readExpression (fun _ => rfl) failed
  | equate => exact speaksOf_readExpression (fun _ => rfl) failed
  | finish => cases failed
  | plain => cases failed

/-! ## Faults of execution -/

/-- Why an operation can fail: the location counter refuses it, arithmetic has no
result, a symbol to move to has no address, an equation has no label, or the
operands could not be read. -/
theorem fault_execute_cases {descriptor : Descriptor} {operation : Operation} {state : State}
    (isFault : fault ∈ (operation.execute mnemonic descriptor state).faults) :
    (∃ refusal, fault = .ofRefusal mnemonic refusal) ∨ (∃ cause, fault = .ofArithmetic cause) ∨
    (∃ target, operation = .origin target ∧
      (fault = .unresolvedSymbol target.term.text ∨ fault = .unplacedSymbol target.term.text)) ∨
    fault = .missingLabel ∨ ∃ operands, operation = .malformed operands fault := by
  cases operation with
  | start address =>
      simp only [execute, executeStart] at isFault
      split at isFault
      · cases isFault
      · exact Or.inl ⟨_, List.mem_singleton.mp isFault⟩
  | finish =>
      rcases Option.map_eq_some_iff.mp (Option.mem_toList.mp isFault) with ⟨refusal, _, same⟩
      exact Or.inl ⟨refusal, same.symm⟩
  | origin target =>
      simp only [execute, executeOrigin] at isFault
      split at isFault
      · exact Or.inl ⟨_, List.mem_singleton.mp isFault⟩
      · split at isFault
        · exact Or.inr (Or.inl ⟨_, List.mem_singleton.mp isFault⟩)
        · exact Or.inr (Or.inr (Or.inl ⟨target, rfl, Or.inl (List.mem_singleton.mp isFault)⟩))
        · exact Or.inr (Or.inr (Or.inl ⟨target, rfl, Or.inr (List.mem_singleton.mp isFault)⟩))
        · split at isFault
          · exact Or.inl ⟨_, List.mem_singleton.mp isFault⟩
          · cases isFault
  | equate label meaning =>
      cases label with
      | none => exact Or.inr (Or.inr (Or.inr (Or.inl (List.mem_singleton.mp isFault))))
      | some name =>
          rcases executeEquate_labelled descriptor name meaning state with
            ⟨_, _, quiet, _⟩ | ⟨cause, _, failed, _⟩
          · rw [execute, quiet] at isFault
            cases isFault
          · rw [execute, failed] at isFault
            exact Or.inr (Or.inl ⟨cause, List.mem_singleton.mp isFault⟩)
  | reserve count =>
      simp only [execute, executeReserve] at isFault
      split at isFault
      · cases isFault
      · exact Or.inl ⟨_, List.mem_singleton.mp isFault⟩
  | word =>
      simp only [execute, executeWord] at isFault
      split at isFault
      · cases isFault
      · exact Or.inl ⟨_, List.mem_singleton.mp isFault⟩
  | malformed operands cause =>
      cases List.mem_singleton.mp isFault
      exact Or.inr (Or.inr (Or.inr (Or.inr ⟨operands, rfl⟩)))

end Operation

namespace Statement

variable {set : InstructionSet} {source : String} {state : State} {fault : Fault}

/-- The fault of a statement is about its own tokens. -/
theorem speaksOf_execute {label : Option String} {token : Token} {rest : List Token}
    (isFault : fault ∈ ((read set label token rest).execute state).faults) :
    fault.SpeaksOf (read set label token rest).tokens := by
  rcases read_cases set label token rest with
    ⟨descriptor, _, isRead⟩ | ⟨_, _, _, isRead⟩ | ⟨_, _, _, _, isRead⟩ | ⟨_, _, isRead⟩ |
      ⟨_, _, isRead⟩
  · rw [isRead] at isFault ⊢
    rcases Operation.fault_execute_cases isFault with
      ⟨refusal, same⟩ | ⟨cause, same⟩ | ⟨target, isMove, same⟩ | same | ⟨operands, failed⟩
    · rw [same]
      exact Fault.speaksOf_ofRefusal List.mem_cons_self refusal
    · rw [same]
      exact Fault.speaksOf_ofArithmetic cause
    · have shown : (⟨target.term.text⟩ : Token) ∈ tokens (.instruction token.text descriptor
          (Operation.read token.text descriptor.role label rest)) := by
        rw [isMove]
        exact List.mem_cons_of_mem _ List.mem_cons_self
      rcases same with same | same
      · rw [same]
        exact ⟨by simpa [Fault.words] using shown, by simp [Fault.expected?]⟩
      · rw [same]
        exact ⟨by simpa [Fault.words] using shown, by simp [Fault.expected?]⟩
    · rw [same]
      exact ⟨by simp [Fault.words], by simp [Fault.expected?]⟩
    · have speaks := Operation.speaksOf_of_read_eq_malformed failed
      rw [failed]
      exact speaks
  · rw [isRead] at isFault
    cases isFault
  · rw [isRead] at isFault
    cases isFault
  · rw [isRead] at isFault
    cases isFault
  · rw [isRead] at isFault
    split at isFault <;> cases isFault

theorem exists_statement_of_fault {statements : List Statement}
    (member : fault ∈ (executeAll state statements).faults) :
    ∃ statement ∈ statements, ∃ middle, fault ∈ (statement.execute middle).faults := by
  induction statements generalizing state with
  | nil => cases member
  | cons first rest ih =>
      rcases List.mem_append.mp member with here | later
      · exact ⟨first, List.mem_cons_self, state, here⟩
      · rcases ih later with ⟨statement, inRest, middle, isFault⟩
        exact ⟨statement, List.mem_cons_of_mem first inRest, middle, isFault⟩

/-! ## The words of a line -/

theorem speaksOf_scan (member : fault ∈ (executeAll state (ofLine set source)).faults) :
    fault.SpeaksOf (Token.scan source) := by
  rcases exists_statement_of_fault member with ⟨statement, inLine, middle, isFault⟩
  have within := (tokens_infix_of_mem inLine).subset
  rcases exists_read_of_mem_readAll inLine with ⟨label, token, rest, wasRead⟩
  rw [wasRead] at isFault within
  exact (speaksOf_execute isFault).mono within

/-- The words that the records of a line keep are its own. -/
theorem word_mem_scan {record : Record}
    (member : record ∈ (executeAll state (ofLine set source)).records) {word : String}
    (isWord : word ∈ record.words) : ⟨word⟩ ∈ Token.scan source := by
  have wereRead : ∀ statement ∈ ofLine set source, ∃ label token rest,
      statement = read set label token rest :=
    fun _ => exists_read_of_mem_readAll
  rcases shows_executeAll wereRead state with ⟨_, shows, _⟩
  rw [show (ofLine set source).flatMap tokens = Token.scan source from tokens_readAll set none _]
    at shows
  rcases shows.exists_token member with ⟨token, inLine, classified⟩
  rw [classified.word_eq isWord]
  exact inLine

/-- A name that a line brings into the symbol table is one of its words. -/
theorem name_mem_scan {statement : Statement} {name : String}
    (member : statement ∈ ofLine set source) (brings : statement.Brings name) :
    ⟨name⟩ ∈ Token.scan source := by
  cases brings with
  | label => exact (word_of_mem_readAll member (Or.inl rfl)).1
  | reference => exact (word_of_mem_readAll member (Or.inr rfl)).1
  | defined => exact (word_of_mem_readAll (label_mem_ofLine member rfl) (Or.inl rfl)).1
  | mentioned isTerm =>
      apply (tokens_infix_of_mem member).subset
      simp [tokens, operands, Operation.operands, Expression.tokens, isTerm, Term.text]

end Statement

/-! ## The words of a report -/

/-- A line of a report keeps words of its source line only, and so do its faults. -/
theorem words_of_line {set : InstructionSet} {lines : List String} {line : AssembledLine}
    (isLine : line ∈ (assemble set lines).lines) :
    ∃ source ∈ lines, (∀ record ∈ line.records, ∀ word ∈ record.words, ⟨word⟩ ∈ Token.scan source) ∧
      ∀ fault ∈ line.faults, fault.SpeaksOf (Token.scan source) := by
  rcases List.getElem?_of_mem isLine with ⟨place, isAt⟩
  rw [getElem?_lines_assemble] at isAt
  rcases Option.map_eq_some_iff.mp isAt with ⟨source, isSource, sameLine⟩
  subst sameLine
  refine ⟨source, List.mem_of_getElem? isSource, ?_, ?_⟩
  · intro record isRecord word isWord
    exact Statement.word_mem_scan isRecord isWord
  · intro fault isFault
    exact Statement.speaksOf_scan isFault

/-- Every symbol has the name of a word of the program. -/
theorem name_of_symbol {set : InstructionSet} {lines : List String} {name : String}
    {value : Symbol.Value} (member : (name, value) ∈ (assemble set lines).symbols.toList) :
    ∃ source ∈ lines, ⟨name⟩ ∈ Token.scan source := by
  have found := SymbolTable.find?_of_mem_toList member
  rw [symbols_assemble] at found
  have present : (State.reached set lines).symbols.find? name ≠ none := by
    rw [found]
    exact Option.some_ne_none value
  rcases State.exists_brings present with ⟨source, inLines, statement, inLine, brings⟩
  exact ⟨source, inLines, Statement.name_mem_scan inLine brings⟩

end FirstPass
