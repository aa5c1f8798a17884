import FirstPass.Proofs.Atomicity
import FirstPass.Proofs.Moves

namespace FirstPass

/-!
The grammar of address expressions.

A reader takes tokens one by one and looks two tokens ahead.  Here is what it
accepts, said without a reader: an expression is a term, alone or with an
operator and a numeral after it, and it is alone only if the two tokens after
it do not look like an operator and its operand.  Lists of tokens that begin
with no expression fall into five kinds, each with its own fault and its own
number of tokens that are passed over.

Every list begins with an expression or is of one of the five kinds, and the
reader answers as the grammar says.
-/

/-- A token is one of the four operators. -/
def Token.IsOperator (token : Token) : Prop :=
  ∃ operator : Operator, token.text = operator.symbol

/-- A token is a term.  A number has to be in the range of addresses, and any
other token is a symbol. -/
inductive Term.SpelledBy (token : Token) : Term → Prop
  | symbol (word : token.isNumber = false) : SpelledBy token (.symbol token.text)
  | number {value : Address} (spelled : token.Spells value) :
      SpelledBy token (.number ⟨token.text, value⟩)

namespace Expression

/-- The tokens after a term do not continue its expression: the first is no
operator, and the second is no number. -/
structure EndsBefore (rest : List Token) : Prop where
  noOperator : ∀ sign, rest[0]? = some sign → ¬ sign.IsOperator
  noNumber : ∀ second, rest[1]? = some second → second.isNumber = false

/-- A list of tokens begins with an expression, and some tokens are left. -/
inductive Parses : List Token → Expression → List Token → Prop
  | calculation {first sign second : Token} {rest : List Token} {term : Term} {operator : Operator}
      {value : Address} (isTerm : term.SpelledBy first) (isOperator : sign.text = operator.symbol)
      (spelled : second.Spells value) :
      Parses (first :: sign :: second :: rest) ⟨term, some (operator, ⟨second.text, value⟩)⟩ rest
  | bare {first : Token} {rest : List Token} {term : Term} (isTerm : term.SpelledBy first)
      (ends : EndsBefore rest) : Parses (first :: rest) ⟨term, none⟩ rest

/-- A list of tokens begins with no expression, for a reason, which is found
after some tokens. -/
inductive Refuses (mnemonic : String) : List Token → Fault → Nat → Prop
  | noTerm : Refuses mnemonic [] (.missingOperand mnemonic "an address expression") 0
  | termOutOfRange {first : Token} {rest : List Token} (outOfRange : first.OutOfRange) :
      Refuses mnemonic (first :: rest) (.badOperand mnemonic first.text) 1
  | noOperand {first sign : Token} {term : Term} (isTerm : term.SpelledBy first)
      (isOperator : sign.IsOperator) :
      Refuses mnemonic [first, sign] (.missingOperand mnemonic "an operand after the operator") 2
  | unknownOperator {first sign second : Token} {rest : List Token} {term : Term}
      (isTerm : term.SpelledBy first) (notOperator : ¬ sign.IsOperator)
      (isNumber : second.isNumber = true) :
      Refuses mnemonic (first :: sign :: second :: rest) (.unknownOperator sign.text) 3
  | badOperand {first sign second : Token} {rest : List Token} {term : Term}
      (isTerm : term.SpelledBy first) (isOperator : sign.IsOperator)
      (unspelled : ∀ value, ¬ second.Spells value) :
      Refuses mnemonic (first :: sign :: second :: rest) (.badOperand mnemonic second.text) 3

end Expression

/-! ## Single tokens -/

theorem Operator.ofSymbol?_eq_some_iff {text : String} {operator : Operator} :
    ofSymbol? text = some operator ↔ text = operator.symbol := by
  constructor
  · intro known
    exact (symbol_of_ofSymbol? known).symm
  · intro same
    rw [same, ofSymbol?_symbol]

theorem Token.isOperator_iff {token : Token} :
    token.IsOperator ↔ (Operator.ofSymbol? token.text).isSome = true := by
  unfold IsOperator
  simp only [Option.isSome_iff_exists, Operator.ofSymbol?_eq_some_iff]

theorem Token.ofSymbol?_of_not_isOperator {token : Token} (notOperator : ¬ token.IsOperator) :
    Operator.ofSymbol? token.text = none := by
  rw [isOperator_iff] at notOperator
  exact Option.not_isSome_iff_eq_none.mp notOperator

theorem Numeral.read_of_spells (mnemonic : String) {token : Token} {value : Address}
    (spelled : token.Spells value) : read mnemonic token = .ok ⟨token.text, value⟩ := by
  have denoted : Address.ofInt? (Decimal.value token.text.toList) = some value :=
    Address.ofInt?_eq_some_iff.mpr spelled.2
  rw [read, ofToken?, if_pos spelled.1, denoted]
  rfl

theorem Numeral.read_of_not_spells (mnemonic : String) {token : Token}
    (unspelled : ∀ value, ¬ token.Spells value) :
    read mnemonic token = .error (.badOperand mnemonic token.text) := by
  cases spelled : ofToken? token with
  | none => simp only [read, spelled]
  | some numeral =>
      have reading : read mnemonic token = .ok numeral := by simp only [read, spelled]
      exact absurd (spells_of_read reading) (unspelled numeral.value)

theorem Term.SpelledBy.read (mnemonic : String) {token : Token} {term : Term}
    (isTerm : term.SpelledBy token) : Term.read mnemonic token = .ok term := by
  cases isTerm with
  | symbol word => rw [Term.read, word]; rfl
  | number spelled =>
      rw [Term.read, if_pos spelled.1, Numeral.read_of_spells mnemonic spelled]
      rfl

theorem Token.exists_spelledBy {token : Token} (inRange : ¬ token.OutOfRange) :
    ∃ term : Term, term.SpelledBy token := by
  cases isNumber : token.isNumber with
  | false => exact ⟨_, .symbol isNumber⟩
  | true =>
      have spelled : token.Spells ⟨_, fits_of_not_outOfRange inRange isNumber⟩ := ⟨isNumber, rfl⟩
      exact ⟨_, .number spelled⟩

namespace Expression

/-! ## The grammar and the reader -/

/-- Every list of tokens begins with an expression or is refused. -/
theorem parses_or_refuses (mnemonic : String) (tokens : List Token) :
    (∃ expression rest, Parses tokens expression rest) ∨
      ∃ fault count, Refuses mnemonic tokens fault count := by
  cases tokens with
  | nil => exact Or.inr ⟨_, _, .noTerm⟩
  | cons first rest =>
      by_cases outOfRange : first.OutOfRange
      · exact Or.inr ⟨_, _, .termOutOfRange outOfRange⟩
      · rcases Token.exists_spelledBy outOfRange with ⟨term, isTerm⟩
        rcases rest with _ | ⟨sign, _ | ⟨second, rest⟩⟩
        · exact Or.inl ⟨_, _, .bare isTerm ⟨by simp, by simp⟩⟩
        · by_cases isOperator : sign.IsOperator
          · exact Or.inr ⟨_, _, .noOperand isTerm isOperator⟩
          · exact Or.inl ⟨_, _, .bare isTerm ⟨by simpa using isOperator, by simp⟩⟩
        · by_cases isOperator : sign.IsOperator
          · by_cases spelled : ∃ value, second.Spells value
            · rcases isOperator with ⟨operator, isOperator⟩
              rcases spelled with ⟨value, spelled⟩
              exact Or.inl ⟨_, _, .calculation isTerm isOperator spelled⟩
            · exact Or.inr ⟨_, _, .badOperand isTerm isOperator (not_exists.mp spelled)⟩
          · cases isNumber : second.isNumber with
            | true => exact Or.inr ⟨_, _, .unknownOperator isTerm isOperator isNumber⟩
            | false =>
                exact Or.inl ⟨_, _,
                  .bare isTerm ⟨by simpa using isOperator, by simpa using isNumber⟩⟩

theorem readArithmetic_of_endsBefore (mnemonic : String) (term : Term) (first : Token)
    {rest : List Token} (ends : EndsBefore rest) :
    readArithmetic mnemonic term first rest = ⟨.ok ⟨term, none⟩, [first], rest⟩ := by
  rcases rest with _ | ⟨sign, _ | ⟨second, rest⟩⟩
  · rfl
  · have unknown := Token.ofSymbol?_of_not_isOperator (ends.noOperator sign rfl)
    simp only [readArithmetic, unknown]
  · have unknown := Token.ofSymbol?_of_not_isOperator (ends.noOperator sign rfl)
    have notNumber := ends.noNumber second rfl
    simp only [readArithmetic, unknown, notNumber, Bool.false_eq_true, if_false]

/-- The reader accepts what the grammar gives. -/
theorem Parses.read (mnemonic : String) {tokens rest : List Token} {expression : Expression}
    (parses : Parses tokens expression rest) :
    (Expression.read mnemonic tokens).outcome = .ok expression ∧
      (Expression.read mnemonic tokens).rest = rest := by
  cases parses with
  | calculation isTerm isOperator spelled =>
      have known := Operator.ofSymbol?_eq_some_iff.mpr isOperator
      simp only [Expression.read, isTerm.read mnemonic, readArithmetic, known,
        Numeral.read_of_spells mnemonic spelled, Except.map, and_self]
  | bare isTerm ends =>
      simp only [Expression.read, isTerm.read mnemonic,
        readArithmetic_of_endsBefore mnemonic _ _ ends, and_self]

/-- The reader reports what the grammar refuses, and passes over the same
number of tokens. -/
theorem Refuses.read {mnemonic : String} {tokens : List Token} {fault : Fault} {count : Nat}
    (refuses : Refuses mnemonic tokens fault count) :
    (Expression.read mnemonic tokens).outcome = .error fault ∧
      (Expression.read mnemonic tokens).rest = tokens.drop count := by
  cases refuses with
  | noTerm => exact ⟨rfl, rfl⟩
  | termOutOfRange outOfRange =>
      simp only [Expression.read, Term.read_of_outOfRange mnemonic outOfRange, List.drop_succ_cons,
        List.drop_zero, and_self]
  | noOperand isTerm isOperator =>
      rcases isOperator with ⟨operator, isOperator⟩
      have known := Operator.ofSymbol?_eq_some_iff.mpr isOperator
      simp only [Expression.read, isTerm.read mnemonic, readArithmetic, known, List.drop_succ_cons,
        List.drop_zero, and_self]
  | unknownOperator isTerm notOperator isNumber =>
      simp only [Expression.read, isTerm.read mnemonic, readArithmetic,
        Token.ofSymbol?_of_not_isOperator notOperator, isNumber, if_true, List.drop_succ_cons,
        List.drop_zero, and_self]
  | badOperand isTerm isOperator unspelled =>
      rcases isOperator with ⟨operator, isOperator⟩
      have known := Operator.ofSymbol?_eq_some_iff.mpr isOperator
      simp only [Expression.read, isTerm.read mnemonic, readArithmetic, known,
        Numeral.read_of_not_spells mnemonic unspelled, Except.map, List.drop_succ_cons,
        List.drop_zero, and_self]

/-- What begins with an expression is not refused, since the reader gives one
outcome. -/
theorem Parses.not_refuses {mnemonic : String} {tokens rest : List Token} {expression : Expression}
    (parses : Parses tokens expression rest) {fault : Fault} {count : Nat} :
    ¬ Refuses mnemonic tokens fault count := by
  intro refuses
  cases (parses.read mnemonic).1.symm.trans refuses.read.1

/-- Reading follows the grammar.  The tokens that are taken and the tokens that
are left are the tokens that there were.  An expression is read, and some tokens
are left, exactly if the tokens begin with that expression and go on with those
tokens.  In every other case a fault is reported: the one that the grammar
gives for the list, which also tells how many tokens were passed over. -/
theorem read_follows_grammar (mnemonic : String) (tokens : List Token) :
    let reading := read mnemonic tokens
    reading.taken ++ reading.rest = tokens ∧
    (∀ expression rest,
      (reading.outcome = .ok expression ∧ reading.rest = rest) ↔ Parses tokens expression rest) ∧
    (∀ fault rest, (reading.outcome = .error fault ∧ reading.rest = rest) ↔
      ∃ count, Refuses mnemonic tokens fault count ∧ rest = tokens.drop count) ∧
    ((¬ ∃ expression rest, Parses tokens expression rest) ↔
      ∃ fault count, Refuses mnemonic tokens fault count) := by
  intro reading
  refine ⟨taken_append_rest mnemonic tokens, ?_, ?_, ?_⟩
  · intro expression rest
    refine ⟨?_, fun parses => parses.read mnemonic⟩
    rintro ⟨success, isRest⟩
    rcases parses_or_refuses mnemonic tokens with ⟨found, left, parses⟩ | ⟨_, _, refuses⟩
    · cases (parses.read mnemonic).1.symm.trans success
      cases (parses.read mnemonic).2.symm.trans isRest
      exact parses
    · cases refuses.read.1.symm.trans success
  · intro fault rest
    constructor
    · rintro ⟨failure, isRest⟩
      rcases parses_or_refuses mnemonic tokens with ⟨_, _, parses⟩ | ⟨cause, count, refuses⟩
      · cases (parses.read mnemonic).1.symm.trans failure
      · cases refuses.read.1.symm.trans failure
        exact ⟨count, refuses, isRest.symm.trans refuses.read.2⟩
    · rintro ⟨count, refuses, isRest⟩
      exact ⟨refuses.read.1, refuses.read.2.trans isRest.symm⟩
  · constructor
    · intro unparsed
      exact (parses_or_refuses mnemonic tokens).resolve_left unparsed
    · rintro ⟨_, _, refuses⟩ ⟨_, _, parses⟩
      exact parses.not_refuses refuses

end Expression
end FirstPass
