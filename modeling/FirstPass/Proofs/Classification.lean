import FirstPass.Proofs.Moves
import FirstPass.Proofs.Numerals
import Mathlib.Order.Fin.Tuple

namespace FirstPass

/-!
Records and the tokens they stand for.

A record is what the first pass found a token to be, and the records of a line
stand in the order of its tokens.  A token may be left without a record, and on
a line without faults only two kinds of tokens are: the operator and the number
of an address expression.  So the tokens of such a line can be counted by its
records.
-/

/-- A record says what a token is.  The meanings have the order of precedence:
mnemonic, register, condition, number, symbol; but an operand can be a constant
or a reference whatever else its word means. -/
inductive Record.Classifies (set : InstructionSet) (token : Token) : Record → Prop
  | instruction {descriptor : Descriptor} (address : Option Address)
      (known : set.instruction? token.text = some descriptor) :
      Classifies set token (.instruction address descriptor.category descriptor.opcode)
  | register {code : OperandCode} (noMnemonic : set.instruction? token.text = none)
      (known : set.register? token.text = some code) : Classifies set token (.register code)
  | condition {code : OperandCode} (noMnemonic : set.instruction? token.text = none)
      (noRegister : set.register? token.text = none)
      (known : set.condition? token.text = some code) :
      Classifies set token (.condition code)
  | constant (isNumber : token.isNumber = true) : Classifies set token (.constant token.text)
  | label (free : set.Lacks token.text) (notNumber : token.isNumber = false) :
      Classifies set token (.label token.text)
  | reference (index : Nat) (notNumber : token.isNumber = false) :
      Classifies set token (.reference token.text index)

/-- Tokens with the records that stand for some of them, in order, and for each
token whether it is left out. -/
inductive Shows (set : InstructionSet) : List Token → List Record → List Bool → Prop
  | nil : Shows set [] [] []
  | shown {token : Token} {record : Record} {tokens : List Token} {records : List Record}
      {omitted : List Bool}
      (classified : record.Classifies set token) (rest : Shows set tokens records omitted) :
      Shows set (token :: tokens) (record :: records) (false :: omitted)
  | omitted {tokens : List Token} {records : List Record} {omitted : List Bool} (token : Token)
      (rest : Shows set tokens records omitted) :
        Shows set (token :: tokens) records (true :: omitted)

namespace Shows

variable {set : InstructionSet} {tokens later : List Token} {records after : List Record}
  {omitted skipped : List Bool}

theorem single {token : Token} {record : Record} (classified : record.Classifies set token) :
    Shows set [token] [record] [false] :=
  .shown classified .nil

theorem silent (tokens : List Token) : Shows set tokens [] (tokens.map fun _ => true) := by
  induction tokens with
  | nil => exact .nil
  | cons token rest ih => exact .omitted token ih

theorem append (first : Shows set tokens records omitted) (second : Shows set later after skipped) :
    Shows set (tokens ++ later) (records ++ after) (omitted ++ skipped) := by
  induction first with
  | nil => exact second
  | shown classified _ ih => exact .shown classified ih
  | omitted token _ ih => exact .omitted token ih

/-- Every token has a record or is left out. -/
theorem length_tokens (shows : Shows set tokens records omitted) :
    tokens.length = records.length + omitted.count true := by
  induction shows with
  | nil => rfl
  | shown _ _ ih =>
      rw [List.length_cons, ih, List.length_cons, List.count_cons_of_ne (by decide)]
      omega
  | omitted _ _ ih =>
      rw [List.length_cons, ih, List.count_cons_self]
      omega

/-- The places of the records among the tokens: in order, each at a token that
the record classifies, and leaving out just those that are left out. -/
theorem exists_places (shows : Shows set tokens records omitted) :
    ∃ place : Fin records.length → Fin tokens.length, StrictMono place ∧
      (∀ i, (records.get i).Classifies set (tokens.get (place i))) ∧
      ∀ p : Fin tokens.length, (∀ i, place i ≠ p) ↔ omitted[p.val]? = some true := by
  induction shows with
  | nil => exact ⟨Fin.elim0, fun i => i.elim0, fun i => i.elim0, fun p => p.elim0⟩
  | shown classified rest ih =>
      rcases ih with ⟨place, increasing, classifies, left⟩
      refine ⟨Fin.cons 0 (fun i => (place i).succ), ?_, ?_, ?_⟩
      · intro i j less
        cases j using Fin.cases with
        | zero => exact absurd less (Fin.not_lt_zero i)
        | succ j =>
            cases i using Fin.cases with
            | zero => exact Fin.succ_pos _
            | succ i => exact Fin.succ_lt_succ_iff.mpr (increasing (Fin.succ_lt_succ_iff.mp less))
      · intro i
        cases i using Fin.cases with
        | zero => exact classified
        | succ i => exact classifies i
      · intro p
        cases p using Fin.cases with
        | zero =>
            constructor
            · intro missed
              exact absurd rfl (missed 0)
            · intro impossible
              cases impossible
        | succ p =>
            refine Iff.trans ?_ (left p)
            constructor
            · intro missed i same
              exact missed i.succ (congrArg Fin.succ same)
            · intro missed i
              cases i using Fin.cases with
              | zero => exact (Fin.succ_ne_zero p).symm
              | succ i => exact fun same => missed i (Fin.succ_inj.mp same)
  | omitted token rest ih =>
      rcases ih with ⟨place, increasing, classifies, left⟩
      refine ⟨fun i => (place i).succ, ?_, classifies, ?_⟩
      · intro i j less
        exact Fin.succ_lt_succ_iff.mpr (increasing less)
      · intro p
        cases p using Fin.cases with
        | zero => exact ⟨fun _ => rfl, fun _ i => Fin.succ_ne_zero (place i)⟩
        | succ p =>
            refine Iff.trans ?_ (left p)
            exact forall_congr' fun i => not_congr Fin.succ_inj

end Shows

/-! ## One statement -/

namespace Statement

/-- The operator and the number of the address expression of a statement. -/
def arithmetic? : Statement → Option (Operator × Numeral)
  | .instruction _ _ (.origin expression) | .instruction _ _ (.equate _ expression) =>
      expression.arithmetic
  | _ => none

/-- For each token of a statement, whether it is the operator or the number of
its address expression. -/
def arithmeticMarks (statement : Statement) : List Bool :=
  match statement.arithmetic? with
  | some _ => [false, false, true, true]
  | none => statement.tokens.map fun _ => false

end Statement

namespace Operation

variable {set : InstructionSet} {mnemonic : String} {descriptor : Descriptor}
  {operation : Operation}

/-- The term of an expression is shown as what it is. -/
theorem classifies_ofTerm {expression : Expression}
    (numbers : ∀ numeral ∈ expression.numerals, numeral.token.isNumber = true)
    (symbols : ∀ name, expression.term.symbol? = some name → (Token.mk name).isNumber = false)
    (table : SymbolTable) :
    (Record.ofTerm table expression.term).Classifies set ⟨expression.term.text⟩ := by
  unfold Expression.numerals at numbers
  cases isTerm : expression.term with
  | number numeral =>
      rw [isTerm] at numbers
      exact .constant (numbers numeral (List.mem_append_left _ List.mem_cons_self))
  | symbol name => exact .reference _ (symbols name (by rw [isTerm, Term.symbol?]))

/-- The mnemonic and the term of an expression are shown, its operator and its
number are not. -/
theorem shows_expression (known : set.instruction? mnemonic = some descriptor)
    {expression : Expression} (spelled : operation.operands = expression.tokens)
    (calculates : (Statement.instruction mnemonic descriptor operation).arithmetic? =
      expression.arithmetic)
    {record : Record} (term : record.Classifies set ⟨expression.term.text⟩) :
    Shows set (⟨mnemonic⟩ :: operation.operands) [.ofDescriptor none descriptor, record]
      (Statement.instruction mnemonic descriptor operation).arithmeticMarks := by
  have own : (Record.ofDescriptor none descriptor).Classifies set ⟨mnemonic⟩ :=
    .instruction none known
  unfold Statement.arithmeticMarks
  rw [calculates, Statement.tokens, Statement.head, Statement.operands, spelled, Expression.tokens]
  cases expression.arithmetic with
  | none => exact .shown own (.single term)
  | some pair => exact .shown own (.shown term (.silent _))

/-- The records of a mnemonic, and the tokens that it leaves out if it has no
fault. -/
theorem shows_execute (known : set.instruction? mnemonic = some descriptor)
    (numbers : ∀ numeral ∈ operation.numerals, numeral.token.isNumber = true)
    (symbols : ∀ name, operation.symbol? = some name → (Token.mk name).isNumber = false)
    (state : State) :
    ∃ omitted,
      Shows set (⟨mnemonic⟩ :: operation.operands)
        (operation.execute mnemonic descriptor state).records omitted ∧
      ((operation.execute mnemonic descriptor state).faults = [] →
        omitted = (Statement.instruction mnemonic descriptor operation).arithmeticMarks) := by
  have own : ∀ address, (Record.ofDescriptor address descriptor).Classifies set ⟨mnemonic⟩ :=
    fun address => .instruction address known
  cases operation with
  | start address =>
      rw [execute, records_executeStart]
      exact ⟨_, .shown (own none) (.single (.constant (numbers address List.mem_cons_self))),
        fun _ => rfl⟩
  | finish => exact ⟨_, .single (own none), fun _ => rfl⟩
  | origin target =>
      rw [execute, records_executeOrigin]
      exact ⟨_, shows_expression known rfl rfl (classifies_ofTerm numbers symbols _), fun _ => rfl⟩
  | equate label meaning =>
      rw [execute, records_executeEquate]
      exact ⟨_, shows_expression known rfl rfl (classifies_ofTerm numbers symbols _), fun _ => rfl⟩
  | reserve count =>
      have shown : (Record.constant count.digits).Classifies set count.token :=
        .constant (numbers count List.mem_cons_self)
      rw [execute]
      rcases executeReserve_cases mnemonic descriptor count state with
        ⟨first, _, _, _, done⟩ | ⟨_, refused⟩
      · rw [done]
        exact ⟨_, .shown (own (some first)) (.single shown), fun _ => rfl⟩
      · rw [refused]
        exact ⟨_, .omitted _ (.single shown), fun quiet => by cases quiet⟩
  | word =>
      rw [execute]
      rcases executeWord_cases mnemonic descriptor state with ⟨first, _, _, _, done⟩ | ⟨_, refused⟩
      · rw [done]
        exact ⟨_, .single (own (some first)), fun _ => rfl⟩
      · rw [refused]
        exact ⟨_, .silent _, fun quiet => by cases quiet⟩
  | malformed operands fault =>
      exact ⟨_, .shown (own none) (.silent operands), fun quiet => by cases quiet⟩

end Operation

namespace Statement

variable {set : InstructionSet}

/-- What a token can be read as, in the order of precedence. -/
theorem read_cases (set : InstructionSet) (label : Option String) (token : Token)
    (rest : List Token) :
    (∃ descriptor, set.instruction? token.text = some descriptor ∧
      read set label token rest =
        .instruction token.text descriptor (Operation.read token.text descriptor.role label rest)) ∨
    (∃ code, set.instruction? token.text = none ∧ set.register? token.text = some code ∧
      read set label token rest = .register token.text code) ∨
    (∃ code, set.instruction? token.text = none ∧ set.register? token.text = none ∧
      set.condition? token.text = some code ∧
        read set label token rest = .condition token.text code) ∨
    (set.Lacks token.text ∧ token.isNumber = true ∧
      read set label token rest = .constant token.text) ∨
    (set.Lacks token.text ∧ token.isNumber = false ∧
      read set label token rest =
        if rest.isEmpty then .reference token.text else .label token.text) := by
  cases mnemonic : set.instruction? token.text with
  | some descriptor => exact Or.inl ⟨descriptor, rfl, read_of_instruction? mnemonic label rest⟩
  | none =>
      cases register : set.register? token.text with
      | some code => exact Or.inr (Or.inl ⟨code, rfl, rfl, by simp only [read, mnemonic, register]⟩)
      | none =>
          cases condition : set.condition? token.text with
          | some code =>
              exact Or.inr (Or.inr (Or.inl ⟨code, rfl, rfl, rfl, by
                simp only [read, mnemonic, register, condition]⟩))
          | none =>
              have lacks : set.Lacks token.text := ⟨mnemonic, register, condition⟩
              have isRead := read_of_lacks lacks label rest
              cases isNumber : token.isNumber with
              | true =>
                  rw [isNumber, if_pos rfl] at isRead
                  exact Or.inr (Or.inr (Or.inr (Or.inl ⟨lacks, rfl, isRead⟩)))
              | false =>
                  rw [isNumber, if_neg Bool.false_ne_true] at isRead
                  exact Or.inr (Or.inr (Or.inr (Or.inr ⟨lacks, rfl, isRead⟩)))

theorem shows_execute (set : InstructionSet) (label : Option String) (token : Token)
    (rest : List Token) (state : State) :
    ∃ omitted,
      Shows set (read set label token rest).tokens
        ((read set label token rest).execute state).records omitted ∧
      (((read set label token rest).execute state).faults = [] →
        omitted = (read set label token rest).arithmeticMarks) := by
  rcases read_cases set label token rest with
    ⟨descriptor, known, isRead⟩ | ⟨code, noMnemonic, known, isRead⟩ |
    ⟨code, noMnemonic, noRegister, known, isRead⟩ | ⟨lacks, isNumber, isRead⟩ |
      ⟨lacks, notNumber, isRead⟩
  · rw [isRead]
    refine Operation.shows_execute known (fun _ => Operation.isNumber_of_mem_numerals) ?_ state
    intro name names
    rcases Operation.eq_cons_of_symbol?_read names with ⟨_, _, notNumber⟩
    exact notNumber
  · rw [isRead]
    exact ⟨_, .single (.register noMnemonic known), fun _ => rfl⟩
  · rw [isRead]
    exact ⟨_, .single (.condition noMnemonic noRegister known), fun _ => rfl⟩
  · rw [isRead]
    exact ⟨_, .single (.constant isNumber), fun _ => rfl⟩
  · rw [isRead]
    split
    · exact ⟨_, .single (.reference _ notNumber), fun _ => rfl⟩
    · exact ⟨_, .single (.label lacks notNumber), fun _ => rfl⟩

/-! ## A whole line -/

theorem shows_executeAll {statements : List Statement}
    (wereRead : ∀ statement ∈ statements, ∃ label token rest, statement = read set label token rest)
    (state : State) :
    ∃ omitted, Shows set (statements.flatMap tokens) (executeAll state statements).records omitted ∧
      ((executeAll state statements).faults = [] →
        omitted = statements.flatMap arithmeticMarks) := by
  induction statements generalizing state with
  | nil => exact ⟨[], .nil, fun _ => rfl⟩
  | cons first rest ih =>
      rcases wereRead first List.mem_cons_self with ⟨label, token, after, wasRead⟩
      have shows := shows_execute set label token after state
      rw [← wasRead] at shows
      rcases shows with ⟨here, showsHere, isHere⟩
      rcases ih (fun other member => wereRead other (List.mem_cons_of_mem first member))
        (first.execute state).state with ⟨later, showsLater, isLater⟩
      refine ⟨here ++ later, showsHere.append showsLater, ?_⟩
      intro quiet
      rcases List.append_eq_nil_iff.mp quiet with ⟨quietHere, quietLater⟩
      rw [List.flatMap_cons, isHere quietHere, isLater quietLater]

/-- A place among the tokens of statements where the operator or the number of
an address expression stands: the third or the fourth token of its statement. -/
def ArithmeticAt (statements : List Statement) (place : Nat) : Prop :=
  ∃ earlier statement later, statements = earlier ++ statement :: later ∧
    statement.arithmetic?.isSome = true ∧
    (place = (earlier.flatMap tokens).length + 2 ∨ place = (earlier.flatMap tokens).length + 3)

/-- A statement with arithmetic has four tokens: the mnemonic, the term, the
operator and the number. -/
theorem length_tokens_of_arithmetic? {statement : Statement}
    (calculates : statement.arithmetic?.isSome = true) : statement.tokens.length = 4 := by
  have three : ∀ expression : Expression, expression.arithmetic.isSome = true →
      expression.tokens.length = 3 := by
    intro expression isSome
    rcases Option.isSome_iff_exists.mp isSome with ⟨pair, isPair⟩
    rw [Expression.tokens, isPair]
    rfl
  cases statement with
  | instruction mnemonic descriptor operation =>
      cases operation with
      | origin target => exact congrArg (· + 1) (three target calculates)
      | equate label meaning => exact congrArg (· + 1) (three meaning calculates)
      | _ => cases calculates
  | _ => cases calculates

theorem arithmeticMarks_of_isSome {statement : Statement}
    (calculates : statement.arithmetic?.isSome = true) :
    statement.arithmeticMarks = [false, false, true, true] := by
  rcases Option.isSome_iff_exists.mp calculates with ⟨pair, isPair⟩
  rw [arithmeticMarks, isPair]

theorem arithmeticMarks_of_not_isSome {statement : Statement}
    (plain : ¬ statement.arithmetic?.isSome = true) :
    statement.arithmeticMarks = statement.tokens.map fun _ => false := by
  rw [arithmeticMarks, Option.not_isSome_iff_eq_none.mp plain]

theorem length_arithmeticMarks (statement : Statement) :
    statement.arithmeticMarks.length = statement.tokens.length := by
  by_cases calculates : statement.arithmetic?.isSome = true
  · rw [arithmeticMarks_of_isSome calculates, length_tokens_of_arithmetic? calculates]
    rfl
  · rw [arithmeticMarks_of_not_isSome calculates, List.length_map]

theorem getElem?_arithmeticMarks {statement : Statement} {place : Nat} :
    statement.arithmeticMarks[place]? = some true ↔
      statement.arithmetic?.isSome = true ∧ (place = 2 ∨ place = 3) := by
  by_cases calculates : statement.arithmetic?.isSome = true
  · rw [arithmeticMarks_of_isSome calculates]
    rcases place with _ | _ | _ | _ | place <;> simp [calculates]
  · rw [arithmeticMarks_of_not_isSome calculates, List.getElem?_map, Option.map_eq_some_iff]
    simp [calculates]

theorem count_arithmeticMarks (statement : Statement) :
    statement.arithmeticMarks.count true = if statement.arithmetic?.isSome then 2 else 0 := by
  by_cases calculates : statement.arithmetic?.isSome = true
  · rw [arithmeticMarks_of_isSome calculates, if_pos calculates]
    rfl
  · rw [arithmeticMarks_of_not_isSome calculates, if_neg calculates, List.count_eq_zero]
    simp

theorem arithmeticAt_cons {first : Statement} {rest : List Statement} {place : Nat} :
    ArithmeticAt (first :: rest) place ↔
      (first.arithmetic?.isSome = true ∧ (place = 2 ∨ place = 3)) ∨
      ∃ later, place = first.tokens.length + later ∧ ArithmeticAt rest later := by
  constructor
  · rintro ⟨earlier, statement, later, split, calculates, here⟩
    cases earlier with
    | nil =>
        rw [(List.cons.inj split).1]
        exact Or.inl ⟨calculates, by simpa using here⟩
    | cons other earlier =>
        rcases List.cons.inj split with ⟨same, splitRest⟩
        rw [List.flatMap_cons, List.length_append, ← same, Nat.add_assoc, Nat.add_assoc] at here
        rcases here with here | here
        · exact Or.inr ⟨_, here, earlier, statement, later, splitRest, calculates, Or.inl rfl⟩
        · exact Or.inr ⟨_, here, earlier, statement, later, splitRest, calculates, Or.inr rfl⟩
  · rintro (⟨calculates, here⟩ |
      ⟨later, isPlace, earlier, statement, after, split, calculates, here⟩)
    · exact ⟨[], first, rest, rfl, calculates, by simpa using here⟩
    · refine ⟨first :: earlier, statement, after, by rw [split, List.cons_append], calculates, ?_⟩
      rw [List.flatMap_cons, List.length_append]
      omega

theorem arithmeticAt_iff {statements : List Statement} {place : Nat} :
    ArithmeticAt statements place ↔ (statements.flatMap arithmeticMarks)[place]? = some true := by
  induction statements generalizing place with
  | nil =>
      constructor
      · rintro ⟨earlier, statement, later, split, _⟩
        cases earlier <;> cases split
      · intro impossible
        cases impossible
  | cons first rest ih =>
      rw [arithmeticAt_cons, List.flatMap_cons, ← getElem?_arithmeticMarks]
      have sameLength := first.length_arithmeticMarks
      by_cases inside : place < first.arithmeticMarks.length
      · rw [List.getElem?_append_left inside]
        constructor
        · rintro (here | ⟨later, isPlace, _⟩)
          · exact here
          · omega
        · exact Or.inl
      · rw [List.getElem?_append_right (Nat.not_lt.mp inside), ← ih, sameLength]
        constructor
        · rintro (here | ⟨later, isPlace, arithmetic⟩)
          · rw [List.getElem?_eq_none (Nat.not_lt.mp inside)] at here
            cases here
          · rw [isPlace, Nat.add_sub_cancel_left]
            exact arithmetic
        · intro arithmetic
          exact Or.inr ⟨_, by omega, arithmetic⟩

theorem count_flatMap_arithmeticMarks (statements : List Statement) :
    (statements.flatMap arithmeticMarks).count true =
      2 * (statements.filter fun statement => statement.arithmetic?.isSome).length := by
  induction statements with
  | nil => rfl
  | cons first rest ih =>
      rw [List.flatMap_cons, List.count_append, ih, count_arithmeticMarks, List.filter_cons]
      split
      · rw [List.length_cons]
        omega
      · omega

end Statement

/-- The records of a line are what its tokens were found to be, in the order of
the tokens.  If the line has no faults, then the tokens without a record are just
the operators and the numbers of its address expressions, two for each expression
that has arithmetic. -/
theorem records_classify_tokens (set : InstructionSet) (state : State) (number : Nat)
    (source : String) :
    let line := (state.step set number source).line
    let tokens := Token.scan source
    let statements := Statement.ofLine set source
    statements.flatMap Statement.tokens = tokens ∧
    ∃ place : Fin line.records.length → Fin tokens.length, StrictMono place ∧
      (∀ i, (line.records.get i).Classifies set (tokens.get (place i))) ∧
      (line.faults = [] →
        (∀ p : Fin tokens.length, (∀ i, place i ≠ p) ↔ Statement.ArithmeticAt statements p.val) ∧
        tokens.length = line.records.length +
          2 * (statements.filter fun statement => statement.arithmetic?.isSome).length) := by
  intro line tokens statements
  have whole : statements.flatMap Statement.tokens = tokens :=
    Statement.tokens_readAll set none tokens
  refine ⟨whole, ?_⟩
  have wereRead : ∀ statement ∈ statements, ∃ label token rest,
      statement = Statement.read set label token rest :=
    fun _ => Statement.exists_read_of_mem_readAll
  rcases Statement.shows_executeAll wereRead state with ⟨omitted, shows, isOmitted⟩
  rw [whole] at shows
  rcases shows.exists_places with ⟨place, increasing, classifies, left⟩
  refine ⟨place, increasing, classifies, ?_⟩
  intro quiet
  have same := isOmitted quiet
  refine ⟨?_, ?_⟩
  · intro p
    exact (left p).trans (same ▸ Statement.arithmeticAt_iff.symm)
  · rw [← Statement.count_flatMap_arithmeticMarks, ← same]
    exact shows.length_tokens

/-- A label, a move, a term, an operator and a number: five tokens, of which the
last two have no record. -/
theorem records_classify_tokens_of_move :
    let line :=
      (State.step .standard { counter := .running ⟨100, by decide⟩ } 1 "LOOP ORIGIN LOOP + 2").line
    let statements := Statement.ofLine .standard "LOOP ORIGIN LOOP + 2"
    line.faults = [] ∧
      (statements.filter fun statement => statement.arithmetic?.isSome).length = 1 ∧
      (Token.scan "LOOP ORIGIN LOOP + 2").length = line.records.length +
        2 * (statements.filter fun statement => statement.arithmetic?.isSome).length := by
  intro line statements
  have quiet : line.faults = [] := by decide +kernel
  rcases records_classify_tokens .standard { counter := .running ⟨100, by decide⟩ } 1
    "LOOP ORIGIN LOOP + 2" with ⟨_, place, _, _, counted⟩
  exact ⟨quiet, by decide +kernel, (counted quiet).2⟩

end FirstPass
