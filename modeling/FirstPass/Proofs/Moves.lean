import FirstPass.Proofs.Runs

namespace FirstPass

/-!
Moving the location counter, and the symbols.

A move to a term, an operator and a number reads these three tokens as its
expression, and whatever comes of it, no symbol is added or changed.  There is
one exception.  A term that is a number out of the range of addresses is
refused before the tokens after it are looked at.  They are then read as
statements of their own, so the operator is taken for a label and gets the
place of the counter.
-/

/-- A token is a number, but not one that an address has. -/
def Token.OutOfRange (token : Token) : Prop :=
  token.isNumber = true ∧ ¬ Address.Fits (Decimal.value token.text.toList)

instance (token : Token) : Decidable token.OutOfRange :=
  inferInstanceAs (Decidable (_ ∧ _))

theorem Token.fits_of_not_outOfRange {token : Token} (inRange : ¬ token.OutOfRange)
    (isNumber : token.isNumber = true) : Address.Fits (Decimal.value token.text.toList) := by
  by_contra tooLarge
  exact inRange ⟨isNumber, tooLarge⟩

/-! ## How many tokens the expression takes -/

theorem Numeral.ofToken?_eq_none_of_outOfRange {token : Token} (outOfRange : token.OutOfRange) :
    Numeral.ofToken? token = none := by
  rw [Numeral.ofToken?, if_pos outOfRange.1, Address.ofInt?_of_not_fits outOfRange.2]
  rfl

theorem Term.read_of_outOfRange (mnemonic : String) {token : Token}
    (outOfRange : token.OutOfRange) :
    Term.read mnemonic token = .error (.badOperand mnemonic token.text) := by
  rw [Term.read, if_pos outOfRange.1, Numeral.read,
    Numeral.ofToken?_eq_none_of_outOfRange outOfRange]
  rfl

theorem Term.exists_read (mnemonic : String) {token : Token} (inRange : ¬ token.OutOfRange) :
    ∃ term, Term.read mnemonic token = .ok term := by
  by_cases isNumber : token.isNumber = true
  · have fits := Token.fits_of_not_outOfRange inRange isNumber
    refine ⟨.number ⟨token.text, ⟨_, fits⟩⟩, ?_⟩
    rw [Term.read, if_pos isNumber, Numeral.read, Numeral.ofToken?, if_pos isNumber,
      Address.ofInt?_of_fits fits]
    rfl
  · exact ⟨.symbol token.text, if_neg isNumber⟩

theorem Operator.ofSymbol?_symbol (operator : Operator) :
    ofSymbol? operator.symbol = some operator := by
  cases operator <;> rfl

/-- After a term that could be read, the operator and the token after it
belong to the expression, even if that token is no numeral. -/
theorem Expression.taken_read {mnemonic : String} {token : Token} {term : Term}
    (readable : Term.read mnemonic token = .ok term) (operator : Operator) (number : Token) :
    (read mnemonic [token, ⟨operator.symbol⟩, number]).taken =
      [token, ⟨operator.symbol⟩, number] := by
  simp only [read, readable, readArithmetic, Operator.ofSymbol?_symbol]

theorem Operation.operands_readExpression_eq_taken (mnemonic : String)
    {operation : Expression → Operation}
    (shown : ∀ expression, (operation expression).operands = expression.tokens)
    (rest : List Token) :
    (readExpression mnemonic operation rest).operands = (Expression.read mnemonic rest).taken := by
  cases reading : (Expression.read mnemonic rest).outcome with
  | ok expression => simp only [readExpression, reading, shown, Expression.tokens_of_read reading]
  | error fault => simp only [readExpression, reading, operands]

/-! ## Words without a meaning of their own -/

/-- A word names no mnemonic, no register and no condition. -/
structure InstructionSet.Lacks (set : InstructionSet) (word : String) : Prop where
  instruction : set.instruction? word = none
  register : set.register? word = none
  condition : set.condition? word = none

/-- All words that an instruction set gives a meaning. -/
def InstructionSet.words (set : InstructionSet) : List String :=
  set.instructions.toList.map Prod.fst ++ set.registers.toList.map Prod.fst ++
    set.conditions.toList.map Prod.fst

theorem Lexicon.find?_eq_none {Meaning : Type} {lexicon : Lexicon Meaning} {word : String}
    (absent : word ∉ lexicon.toList.map Prod.fst) : lexicon.find? word = none := by
  refine List.lookup_eq_none_iff.mpr ?_
  intro entry member
  apply bne_iff_ne.mpr
  intro same
  rw [same] at absent
  exact absent (List.mem_map_of_mem member)

theorem InstructionSet.lacks_of_not_mem {set : InstructionSet} {word : String}
    (absent : word ∉ set.words) : set.Lacks word := by
  rw [words, List.mem_append, List.mem_append, not_or, not_or] at absent
  rcases absent with ⟨⟨notInstruction, notRegister⟩, notCondition⟩
  exact ⟨Lexicon.find?_eq_none notInstruction, Lexicon.find?_eq_none notRegister,
    Lexicon.find?_eq_none notCondition⟩

theorem InstructionSet.words_standard :
    ∀ word ∈ standard.words, (Token.mk word).isNumber = false ∧ Operator.ofSymbol? word = none := by
  decide +kernel

theorem InstructionSet.lacks_number {number : Token} (isNumber : number.isNumber = true) :
    standard.Lacks number.text := by
  apply lacks_of_not_mem
  intro member
  have notNumber : number.isNumber = false := (words_standard number.text member).1
  cases notNumber.symm.trans isNumber

theorem InstructionSet.lacks_operator (operator : Operator) : standard.Lacks operator.symbol := by
  apply lacks_of_not_mem
  intro member
  have notOperator := (words_standard operator.symbol member).2
  cases notOperator.symm.trans (Operator.ofSymbol?_symbol operator)

namespace Statement

theorem read_of_lacks {set : InstructionSet} {token : Token} (lacks : set.Lacks token.text)
    (label : Option String) (rest : List Token) :
    read set label token rest =
      if token.isNumber then .constant token.text
      else if rest.isEmpty then .reference token.text else .label token.text := by
  simp only [read, lacks.instruction, lacks.register, lacks.condition]

/-! ## The statements of the line -/

/-- Unless the term is out of range, the line is one statement. -/
theorem readAll_move {set : InstructionSet} {mnemonic : Token} {descriptor : Descriptor}
    (known : set.instruction? mnemonic.text = some descriptor) (moves : descriptor.role = .origin)
    (label : Option String) {term : Token} (inRange : ¬ term.OutOfRange) (operator : Operator)
    (number : Token) :
    ∃ operation, operation.role? ≠ some .equate ∧
      readAll set label [mnemonic, term, ⟨operator.symbol⟩, number] =
        [.instruction mnemonic.text descriptor operation] := by
  rcases Term.exists_read mnemonic.text inRange with ⟨_, readable⟩
  have taken : (Operation.read mnemonic.text descriptor.role label
      [term, ⟨operator.symbol⟩, number]).operands = [term, ⟨operator.symbol⟩, number] := by
    rw [moves, Operation.read, Operation.operands_readExpression_eq_taken _ (fun _ => rfl),
      Expression.taken_read readable]
  refine ⟨Operation.read mnemonic.text descriptor.role label [term, ⟨operator.symbol⟩, number], ?_,
    ?_⟩
  · intro isEquate
    cases moves.symm.trans (Operation.role_eq_of_role?_read isEquate)
  · rw [readAll, read_of_instruction? known]
    simp only [operands, taken, List.length_cons, List.length_nil, List.drop_succ_cons,
      List.drop_zero, readAll]

/-- If the term is out of range, the tokens after it are left. -/
theorem readAll_move_of_outOfRange {set : InstructionSet} {mnemonic : Token}
    {descriptor : Descriptor} (known : set.instruction? mnemonic.text = some descriptor)
    (moves : descriptor.role = .origin) (label : Option String) {term : Token}
    (outOfRange : term.OutOfRange) (rest : List Token) :
    readAll set label (mnemonic :: term :: rest) =
      .instruction mnemonic.text descriptor
        (.malformed [term] (.badOperand mnemonic.text term.text)) :: readAll set label rest := by
  have refused : Operation.read mnemonic.text descriptor.role label (term :: rest) =
      .malformed [term] (.badOperand mnemonic.text term.text) := by
    simp only [moves, Operation.read, Operation.readExpression, Expression.read,
      Term.read_of_outOfRange mnemonic.text outOfRange]
  rw [readAll, read_of_instruction? known, refused]
  rfl

/-- An operator and a number by themselves are a label and a constant. -/
theorem readAll_operator_number {number : Token} (isNumber : number.isNumber = true)
    (label : Option String) (operator : Operator) :
    readAll .standard label [⟨operator.symbol⟩, number] =
      [.label operator.symbol, .constant number.text] := by
  have notNumber : (Token.mk operator.symbol).isNumber = false := by
    cases operator <;> decide
  have lacks : InstructionSet.standard.Lacks (Token.mk operator.symbol).text :=
    InstructionSet.lacks_operator operator
  rw [readAll, read_of_lacks lacks]
  simp only [notNumber, List.isEmpty_cons, Bool.false_eq_true, if_false, operands, List.length_nil,
    List.drop_zero]
  rw [readAll, read_of_lacks (InstructionSet.lacks_number isNumber), if_pos isNumber]
  simp only [operands, List.length_nil, List.drop_zero, readAll]

end Statement

/-- From any state, a line with an origin, a term, an operator and a number
leaves the symbols as they were, whether the counter moves or a fault is
reported.  Only if the term is a number out of range, the operator becomes a
symbol at the place of the counter. -/
theorem symbols_after_move (state : State) (line : Nat) {source : String} {term number : Token}
    {operator : Operator}
    (tokens : Token.scan source = [⟨"ORIGIN"⟩, term, ⟨operator.symbol⟩, number])
    (isNumber : number.isNumber = true) :
    (state.step .standard line source).state.symbols =
      if term.OutOfRange then
        (state.symbols.assign operator.symbol (.ofPlace state.counter.value)).2
      else state.symbols := by
  have known : InstructionSet.standard.instruction? "ORIGIN" = some ⟨⟨3⟩, .directive, .origin⟩ := by
    decide +kernel
  rw [State.step, Statement.ofLine, tokens]
  split
  · rename_i outOfRange
    rw [Statement.readAll_move_of_outOfRange known rfl none outOfRange,
      Statement.readAll_operator_number isNumber]
    exact State.symbols_bind state operator.symbol (.ofPlace state.counter.value)
  · rename_i inRange
    rcases Statement.readAll_move known rfl none inRange operator number with
      ⟨operation, notEquate, whole⟩
    rw [whole]
    exact Operation.symbols_execute "ORIGIN" _ notEquate state

/-- A move to an unknown symbol does not add it. -/
theorem symbols_after_move_to_unresolved :
    ((State.reached .standard ["START 100", "ADD L"]).step .standard 3
      "ORIGIN  M / 0").state.symbols =
      (State.reached .standard ["START 100", "ADD L"]).symbols := by
  have tokens : Token.scan "ORIGIN  M / 0" =
      [⟨"ORIGIN"⟩, ⟨"M"⟩, ⟨Operator.divide.symbol⟩, ⟨"0"⟩] := by
    decide +kernel
  rw [symbols_after_move _ 3 tokens (by decide)]
  exact if_neg (by decide)

/-- A move to a number out of range may add a symbol. -/
theorem move_out_of_range_adds_symbol :
    ¬ ∀ (lines : List String) (line : Nat) (source : String) (term number : Token)
      (operator : Operator),
      Token.scan source = [⟨"ORIGIN"⟩, term, ⟨operator.symbol⟩, number] → number.isNumber = true →
        ((State.reached .standard lines).step .standard line source).state.symbols =
          (State.reached .standard lines).symbols := by
  intro everyMove
  have same :=
    everyMove ["START 100"] 2 "ORIGIN 9223372036854775808 + 5" ⟨"9223372036854775808"⟩ ⟨"5"⟩ .add
    (by decide +kernel) (by decide)
  have added : ((State.reached .standard ["START 100"]).step .standard 2
      "ORIGIN 9223372036854775808 + 5").state.symbols.find? "+" =
        some (.address ⟨100, by decide⟩) := by
    decide +kernel
  rw [same] at added
  revert added
  decide +kernel

end FirstPass
