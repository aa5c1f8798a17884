import FirstPass.Statement

namespace FirstPass

/-!
What reading a line can give.

An operation that was read in full tells the role of its mnemonic, and an
equation defines the label nearest before it on its line.  Both follow from
the way statements are read, and are what the execution of a line relies on.
Every number that a statement computes with is spelled by one of its tokens,
and the symbol that it computes with stands directly after its mnemonic.
-/

/-- The value of a numeral is the number that its digits denote. -/
theorem Numeral.value_of_ofToken? {token : Token} {numeral : Numeral}
    (spelled : ofToken? token = some numeral) :
    numeral.value.value = Decimal.value numeral.digits.toList := by
  unfold ofToken? at spelled
  split at spelled
  · rcases Option.map_eq_some_iff.mp spelled with ⟨value, inRange, same⟩
    subst same
    exact Address.ofInt?_eq_some_iff.mp inRange
  · cases spelled

theorem Numeral.ofToken?_of_read {mnemonic : String} {token : Token} {numeral : Numeral}
    (success : Numeral.read mnemonic token = .ok numeral) : ofToken? token = some numeral := by
  unfold Numeral.read at success
  split at success
  · rename_i spelled
    cases success
    exact spelled
  · cases success

theorem Numeral.value_of_read {mnemonic : String} {token : Token} {numeral : Numeral}
    (success : Numeral.read mnemonic token = .ok numeral) :
    numeral.value.value = Decimal.value numeral.digits.toList :=
  Numeral.value_of_ofToken? (Numeral.ofToken?_of_read success)

namespace Expression

/-- An expression that was read begins with its term, and an operator and a
numeral follow if it has arithmetic. -/
theorem parts_of_read {mnemonic : String} {tokens : List Token} {expression : Expression}
    (success : (read mnemonic tokens).outcome = .ok expression) :
    ∃ first rest, tokens = first :: rest ∧ Term.read mnemonic first = .ok expression.term ∧
      (expression.arithmetic = none ∨
        ∃ sign second later operator numeral, rest = sign :: second :: later ∧
          Operator.ofSymbol? sign.text = some operator ∧
            Numeral.read mnemonic second = .ok numeral ∧
          expression.arithmetic = some (operator, numeral)) := by
  cases tokens with
  | nil => cases success
  | cons first rest =>
      cases reading : Term.read mnemonic first with
      | error fault => simp [read, reading] at success
      | ok term =>
          simp only [read, reading] at success
          unfold readArithmetic at success
          split at success
          · cases success
            exact ⟨first, _, rfl, reading, Or.inl rfl⟩
          · split at success
            · cases success
            · cases success
              exact ⟨first, _, rfl, reading, Or.inl rfl⟩
          · rename_i sign second later
            split at success
            · rename_i operator known
              cases operand : Numeral.read mnemonic second with
              | error fault => simp [operand, Except.map] at success
              | ok numeral =>
                  simp only [operand, Except.map, Except.ok.injEq] at success
                  subst success
                  exact ⟨first, _, rfl, reading,
                    Or.inr ⟨sign, second, later, operator, numeral, rfl, known, operand, rfl⟩⟩
            · split at success
              · cases success
              · cases success
                exact ⟨first, _, rfl, reading, Or.inl rfl⟩

/-- The numerals of an expression. -/
def numerals (expression : Expression) : List Numeral :=
  (match expression.term with
    | .number numeral => [numeral]
    | .symbol _ => []) ++ (expression.arithmetic.map Prod.snd).toList

end Expression

theorem Term.ofToken?_of_read {mnemonic : String} {token : Token} {numeral : Numeral}
    (success : Term.read mnemonic token = .ok (.number numeral)) :
    Numeral.ofToken? token = some numeral := by
  unfold Term.read at success
  split at success
  · cases reading : Numeral.read mnemonic token with
    | error fault => simp [reading, Except.map] at success
    | ok found =>
        simp only [reading, Except.map, Except.ok.injEq, Term.number.injEq] at success
        exact success ▸ Numeral.ofToken?_of_read reading
  · cases success

/-- The symbol that a term names. -/
def Term.symbol? : Term → Option String
  | .number _ => none
  | .symbol name => some name

/-- A token is read as a symbol only if it is no number. -/
theorem Term.eq_of_read_eq_symbol {mnemonic : String} {token : Token} {name : String}
    (success : Term.read mnemonic token = .ok (.symbol name)) :
    token = ⟨name⟩ ∧ token.isNumber = false := by
  have spelled : name = token.text := Term.text_of_read success
  unfold Term.read at success
  split at success
  · cases reading : Numeral.read mnemonic token <;> simp [reading, Except.map] at success
  · rename_i notNumber
    exact ⟨congrArg Token.mk spelled.symm, Bool.not_eq_true _ ▸ notNumber⟩

theorem Expression.ofToken?_of_mem_numerals {mnemonic : String} {tokens : List Token}
    {expression : Expression} (success : (read mnemonic tokens).outcome = .ok expression)
    {numeral : Numeral} (member : numeral ∈ expression.numerals) :
    ∃ token, Numeral.ofToken? token = some numeral := by
  rcases parts_of_read success with ⟨first, _, _, isTerm, arithmetic⟩
  rcases List.mem_append.mp member with inTerm | inArithmetic
  · cases term : expression.term with
    | number found =>
        rw [term] at inTerm isTerm
        rw [List.mem_singleton.mp inTerm]
        exact ⟨first, Term.ofToken?_of_read isTerm⟩
    | symbol name =>
        rw [term] at inTerm
        cases inTerm
  · rcases arithmetic with none | ⟨_, second, _, _, found, _, _, operand, isArithmetic⟩
    · rw [none] at inArithmetic
      cases inArithmetic
    · rw [isArithmetic] at inArithmetic
      rw [List.mem_singleton.mp inArithmetic]
      exact ⟨second, Numeral.ofToken?_of_read operand⟩

namespace Operation

/-- The role that asks for an operation.  Operands that could not be read do
not tell. -/
def role? : Operation → Option Role
  | .start _ => some .start
  | .finish => some .finish
  | .origin _ => some .origin
  | .equate _ _ => some .equate
  | .reserve _ => some .reserve
  | .word => some .plain
  | .malformed _ _ => none

/-- Reading a numeral either gives the operation with it, or fails. -/
theorem readNumeral_cases (mnemonic expected : String) (operation : Numeral → Operation)
    (rest : List Token) :
    (∃ operand later numeral, rest = operand :: later ∧
      Numeral.read mnemonic operand = .ok numeral ∧
      readNumeral mnemonic expected operation rest = operation numeral) ∨
    ∃ operands fault, readNumeral mnemonic expected operation rest = .malformed operands fault := by
  cases rest with
  | nil => exact Or.inr ⟨_, _, rfl⟩
  | cons operand rest =>
      cases reading : Numeral.read mnemonic operand with
      | ok numeral =>
          exact Or.inl ⟨operand, rest, numeral, rfl, reading, by simp only [readNumeral, reading]⟩
      | error fault => exact Or.inr ⟨[operand], fault, by simp only [readNumeral, reading]⟩

/-- Reading an expression either gives the operation with it, or fails. -/
theorem readExpression_cases (mnemonic : String) (operation : Expression → Operation)
    (rest : List Token) :
    (∃ expression, (Expression.read mnemonic rest).outcome = .ok expression ∧
      readExpression mnemonic operation rest = operation expression) ∨
    ∃ operands fault, readExpression mnemonic operation rest = .malformed operands fault := by
  cases reading : (Expression.read mnemonic rest).outcome with
  | ok expression => exact Or.inl ⟨expression, rfl, by simp only [readExpression, reading]⟩
  | error fault =>
      exact Or.inr ⟨(Expression.read mnemonic rest).taken, fault,
        by simp only [readExpression, reading]⟩

theorem role?_readNumeral (mnemonic expected : String) {operation : Numeral → Operation}
    {role : Role} (asks : ∀ numeral, (operation numeral).role? = some role) (rest : List Token) :
    (readNumeral mnemonic expected operation rest).role? = some role ∨
      (readNumeral mnemonic expected operation rest).role? = none := by
  rcases readNumeral_cases mnemonic expected operation rest with
    ⟨_, _, numeral, _, _, whole⟩ | ⟨operands, fault, failed⟩
  · exact Or.inl (by rw [whole, asks])
  · exact Or.inr (by rw [failed, role?])

theorem role?_readExpression (mnemonic : String) {operation : Expression → Operation} {role : Role}
    (asks : ∀ expression, (operation expression).role? = some role) (rest : List Token) :
    (readExpression mnemonic operation rest).role? = some role ∨
      (readExpression mnemonic operation rest).role? = none := by
  rcases readExpression_cases mnemonic operation rest with
    ⟨expression, _, whole⟩ | ⟨operands, fault, failed⟩
  · exact Or.inl (by rw [whole, asks])
  · exact Or.inr (by rw [failed, role?])

/-- An operation that was read tells the role of its mnemonic, or nothing. -/
theorem role?_read (mnemonic : String) (role : Role) (label : Option String) (rest : List Token) :
    (read mnemonic role label rest).role? = some role ∨
      (read mnemonic role label rest).role? = none := by
  cases role with
  | start => exact role?_readNumeral _ _ (fun _ => rfl) rest
  | reserve => exact role?_readNumeral _ _ (fun _ => rfl) rest
  | origin => exact role?_readExpression _ (fun _ => rfl) rest
  | equate => exact role?_readExpression _ (fun _ => rfl) rest
  | finish => exact Or.inl rfl
  | plain => exact Or.inl rfl

theorem role_eq_of_role?_read {mnemonic : String} {role known : Role} {label : Option String}
    {rest : List Token} (tells : (read mnemonic role label rest).role? = some known) :
    role = known := by
  rcases role?_read mnemonic role label rest with same | silent
  · exact Option.some.inj (same.symm.trans tells)
  · rw [silent] at tells
    cases tells

/-- An equation that was read defines the label that stood before it. -/
theorem label_eq_of_read_eq_equate {mnemonic : String} {role : Role} {label defined : Option String}
    {rest : List Token} {meaning : Expression}
    (equation : read mnemonic role label rest = .equate defined meaning) : defined = label := by
  have isEquate : role = .equate := role_eq_of_role?_read (by rw [equation, role?])
  subst isEquate
  rcases readExpression_cases mnemonic (.equate label) rest with
    ⟨_, _, whole⟩ | ⟨_, _, failed⟩
  · rw [read, whole] at equation
    cases equation
    rfl
  · rw [read, failed] at equation
    cases equation

/-- The count of a reservation that was read is a numeral of the line. -/
theorem read_of_read_eq_reserve {mnemonic : String} {role : Role} {label : Option String}
    {rest : List Token} {count : Numeral}
    (reservation : read mnemonic role label rest = .reserve count) :
    ∃ operand, Numeral.read mnemonic operand = .ok count := by
  have isReserve : role = .reserve := role_eq_of_role?_read (by rw [reservation, role?])
  subst isReserve
  rcases readNumeral_cases mnemonic "a word count" .reserve rest with
    ⟨operand, _, _, _, success, whole⟩ | ⟨_, _, failed⟩
  · rw [read, whole] at reservation
    cases reservation
    exact ⟨operand, success⟩
  · rw [read, failed] at reservation
    cases reservation

/-- The numerals that an operation computes with. -/
def numerals : Operation → List Numeral
  | .start numeral | .reserve numeral => [numeral]
  | .origin expression | .equate _ expression => expression.numerals
  | .finish | .word | .malformed _ _ => []

theorem ofToken?_of_mem_readNumeral {mnemonic expected : String} {operation : Numeral → Operation}
    (shown : ∀ numeral, (operation numeral).numerals = [numeral])
    {rest : List Token} {numeral : Numeral}
    (member : numeral ∈ (readNumeral mnemonic expected operation rest).numerals) :
    ∃ token, Numeral.ofToken? token = some numeral := by
  rcases readNumeral_cases mnemonic expected operation rest with
    ⟨operand, _, found, _, success, whole⟩ | ⟨_, _, failed⟩
  · rw [whole, shown] at member
    rw [List.mem_singleton.mp member]
    exact ⟨operand, Numeral.ofToken?_of_read success⟩
  · rw [failed] at member
    cases member

theorem ofToken?_of_mem_readExpression {mnemonic : String} {operation : Expression → Operation}
    (shown : ∀ expression, (operation expression).numerals = expression.numerals)
    {rest : List Token} {numeral : Numeral}
    (member : numeral ∈ (readExpression mnemonic operation rest).numerals) :
    ∃ token, Numeral.ofToken? token = some numeral := by
  rcases readExpression_cases mnemonic operation rest with
    ⟨expression, success, whole⟩ | ⟨_, _, failed⟩
  · rw [whole, shown] at member
    exact Expression.ofToken?_of_mem_numerals success member
  · rw [failed] at member
    cases member

/-- Every numeral of an operation that was read is spelled by a token. -/
theorem ofToken?_of_mem_numerals {mnemonic : String} {role : Role} {label : Option String}
    {rest : List Token} {numeral : Numeral}
    (member : numeral ∈ (read mnemonic role label rest).numerals) :
    ∃ token, Numeral.ofToken? token = some numeral := by
  cases role with
  | start => exact ofToken?_of_mem_readNumeral (fun _ => rfl) member
  | reserve => exact ofToken?_of_mem_readNumeral (fun _ => rfl) member
  | origin => exact ofToken?_of_mem_readExpression (fun _ => rfl) member
  | equate => exact ofToken?_of_mem_readExpression (fun _ => rfl) member
  | finish => cases member
  | plain => cases member

/-- The symbol that the expression of an operation names. -/
def symbol? : Operation → Option String
  | .origin expression | .equate _ expression => expression.term.symbol?
  | .start _ | .finish | .reserve _ | .word | .malformed _ _ => none

theorem symbol?_readNumeral {mnemonic expected : String} {operation : Numeral → Operation}
    (silent : ∀ numeral, (operation numeral).symbol? = none) (rest : List Token) :
    (readNumeral mnemonic expected operation rest).symbol? = none := by
  rcases readNumeral_cases mnemonic expected operation rest with
    ⟨_, _, numeral, _, _, whole⟩ | ⟨_, _, failed⟩
  · rw [whole, silent]
  · rw [failed, symbol?]

theorem eq_cons_of_symbol?_readExpression {mnemonic : String} {operation : Expression → Operation}
    (shown : ∀ expression, (operation expression).symbol? = expression.term.symbol?)
    {rest : List Token} {name : String}
    (names : (readExpression mnemonic operation rest).symbol? = some name) :
    ∃ later, rest = ⟨name⟩ :: later ∧ (Token.mk name).isNumber = false := by
  rcases readExpression_cases mnemonic operation rest with
    ⟨expression, success, whole⟩ | ⟨_, _, failed⟩
  · rw [whole, shown] at names
    rcases Expression.parts_of_read success with ⟨first, later, split, isTerm, _⟩
    cases term : expression.term with
    | number numeral =>
        rw [term] at names
        cases names
    | symbol found =>
        rw [term] at names isTerm
        cases names
        rcases Term.eq_of_read_eq_symbol isTerm with ⟨same, notNumber⟩
        subst same
        exact ⟨later, split, notNumber⟩
  · rw [failed] at names
    cases names

/-- The symbol of an operation that was read stands directly after the mnemonic,
and is no number. -/
theorem eq_cons_of_symbol?_read {mnemonic : String} {role : Role} {label : Option String}
    {rest : List Token} {name : String}
    (names : (read mnemonic role label rest).symbol? = some name) :
    ∃ later, rest = ⟨name⟩ :: later ∧ (Token.mk name).isNumber = false := by
  cases role with
  | start =>
      rw [read, symbol?_readNumeral (fun _ => rfl)] at names
      cases names
  | reserve =>
      rw [read, symbol?_readNumeral (fun _ => rfl)] at names
      cases names
  | origin => exact eq_cons_of_symbol?_readExpression (fun _ => rfl) names
  | equate => exact eq_cons_of_symbol?_readExpression (fun _ => rfl) names
  | finish => cases names
  | plain => cases names

end Operation

namespace Statement

/-- The label that an equation defines. -/
def equated? : Statement → Option String
  | .instruction _ _ (.equate defined _) => defined
  | _ => none

/-- What the mnemonic of a statement makes the first pass do. -/
def role? : Statement → Option Role
  | .instruction _ descriptor _ => some descriptor.role
  | _ => none

theorem read_of_instruction? {set : InstructionSet} {token : Token} {descriptor : Descriptor}
    (known : set.instruction? token.text = some descriptor) (label : Option String)
    (rest : List Token) :
    read set label token rest = .instruction token.text descriptor
      (Operation.read token.text descriptor.role label rest) := by
  simp only [read, known]

theorem label?_eq_some_iff {statement : Statement} {name : String} :
    statement.label? = some name ↔ statement = .label name := by
  cases statement <;> simp [label?]

/-- The tokens of a statement stand together in its line. -/
theorem tokens_infix_of_mem {set : InstructionSet} {label : Option String} {tokens : List Token}
    {statement : Statement} (member : statement ∈ readAll set label tokens) :
    statement.tokens <:+: tokens := by
  rw [← tokens_readAll set label tokens, List.flatMap_def]
  exact List.infix_of_mem_flatten (List.mem_map.mpr ⟨statement, member, rfl⟩)

/-- Every statement of a line was read from one of its tokens. -/
theorem exists_read_of_mem_readAll {set : InstructionSet} {label : Option String}
    {tokens : List Token} {statement : Statement} (member : statement ∈ readAll set label tokens) :
    ∃ nearest token rest, statement = read set nearest token rest := by
  fun_induction readAll set label tokens with
  | case1 => cases member
  | case2 label token rest first ih =>
      rcases List.mem_cons.mp member with here | later
      · exact ⟨label, token, rest, here⟩
      · exact ih later

/-- A mnemonic of a line is in the instruction set, and its operation was read
from the tokens after it. -/
theorem read_of_instruction_mem_readAll {set : InstructionSet} {label : Option String}
    {tokens : List Token} {mnemonic : String} {descriptor : Descriptor} {operation : Operation}
    (member : .instruction mnemonic descriptor operation ∈ readAll set label tokens) :
    set.instruction? mnemonic = some descriptor ∧
      ∃ nearest rest, operation = Operation.read mnemonic descriptor.role nearest rest := by
  rcases exists_read_of_mem_readAll member with ⟨nearest, token, rest, same⟩
  unfold read at same
  split at same
  · rename_i found
    cases same
    exact ⟨found, nearest, rest, rfl⟩
  · repeat' split at same
    all_goals cases same

theorem descriptor_role_of_role? {set : InstructionSet} {label : Option String}
    {tokens : List Token} {mnemonic : String} {descriptor : Descriptor} {operation : Operation}
    {role : Role} (member : .instruction mnemonic descriptor operation ∈ readAll set label tokens)
    (tells : operation.role? = some role) : descriptor.role = role := by
  rcases read_of_instruction_mem_readAll member with ⟨_, nearest, rest, wasRead⟩
  exact Operation.role_eq_of_role?_read (wasRead ▸ tells)

/-- Only a mnemonic for equations defines a label by an equation. -/
theorem role?_of_equated? {set : InstructionSet} {label : Option String} {tokens : List Token}
    {statement : Statement} {name : String} (member : statement ∈ readAll set label tokens)
    (defines : statement.equated? = some name) : statement.role? = some .equate := by
  cases statement with
  | instruction mnemonic descriptor operation =>
      cases operation with
      | equate defined meaning => rw [role?, descriptor_role_of_role? member rfl]
      | _ => cases defines
  | _ => cases defines

theorem label_eq_of_equated?_read {set : InstructionSet} {label : Option String} {token : Token}
    {rest : List Token} {name : String}
    (defines : (read set label token rest).equated? = some name) : label = some name := by
  unfold read at defines
  split at defines
  · cases operation : Operation.read token.text _ label rest with
    | equate defined meaning =>
        rw [operation] at defines
        have isName : defined = some name := defines
        exact (Operation.label_eq_of_read_eq_equate operation).symm.trans isName
    | _ =>
        rw [operation] at defines
        cases defines
  · repeat' split at defines
    all_goals cases defines

/-- The label that an equation defines stands before it: on the same line, or
else it was given from the start. -/
theorem label_before_equation {set : InstructionSet} {label : Option String} {tokens : List Token}
    {earlier later : List Statement} {statement : Statement} {name : String}
    (split : readAll set label tokens = earlier ++ statement :: later)
    (defines : statement.equated? = some name) : label = some name ∨ .label name ∈ earlier := by
  fun_induction readAll set label tokens generalizing earlier
  case case1 label => simp at split
  case case2 label token rest first ih =>
      cases earlier with
      | nil =>
          have same := (List.cons.inj split).1
          exact Or.inl (label_eq_of_equated?_read (same ▸ defines))
      | cons other earlier =>
          rcases List.cons.inj split with ⟨same, splitRest⟩
          rcases ih splitRest with nearest | member
          · -- The nearest label is the statement passed over, if that is a label.
            rw [same] at nearest
            rcases Option.or_eq_some_iff.mp nearest with here | ⟨_, before⟩
            · rw [label?_eq_some_iff.mp here]
              exact Or.inr List.mem_cons_self
            · exact Or.inl before
          · exact Or.inr (List.mem_cons_of_mem other member)

/-- On a line, the label that an equation defines stands before it. -/
theorem label_before_equation_ofLine {set : InstructionSet} {source : String}
    {earlier later : List Statement} {statement : Statement} {name : String}
    (split : ofLine set source = earlier ++ statement :: later)
    (defines : statement.equated? = some name) : .label name ∈ earlier := by
  rcases label_before_equation split defines with given | member
  · cases given
  · exact member

end Statement
end FirstPass
