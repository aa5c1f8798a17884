import FirstPass.Fault
import FirstPass.SymbolTable
import FirstPass.Token

namespace FirstPass

/-!
Address expressions.

An address expression is a term, which is a numeral or a symbol, and may go
on with an operator and a second numeral, each a token of its own.  Whether
it goes on is decided by looking two tokens ahead: it does if the token after
the term is an operator, and also if the token after that is a number, which
makes the token between them an operator that is not known.
-/

/-- The first part of an address expression. -/
inductive Term
  | number (numeral : Numeral)
  | symbol (name : String)
deriving DecidableEq, Repr

def Term.text : Term → String
  | .number numeral => numeral.digits
  | .symbol name => name

/-- The value of a term.  A symbol that is not in the table is unresolved. -/
def Term.value (term : Term) (symbols : SymbolTable) : Symbol.Value :=
  match term with
  | .number numeral => .address numeral.value
  | .symbol name => (symbols.find? name).getD .unresolved

structure Expression where
  term : Term
  arithmetic : Option (Operator × Numeral) := none
deriving DecidableEq, Repr

/-- What reading an operand from a list of tokens gives: the operand or its
fault, the tokens that were taken, and the tokens that were left. -/
structure Reading (Operand : Type) where
  outcome : Except Fault Operand
  taken : List Token
  rest : List Token

/-- Read a token that must be a numeral. -/
def Numeral.read (mnemonic : String) (token : Token) : Except Fault Numeral :=
  match Numeral.ofToken? token with
  | some numeral => .ok numeral
  | none => .error (.badOperand mnemonic token.text)

theorem Numeral.token_of_read {mnemonic : String} {token : Token} {numeral : Numeral}
    (success : Numeral.read mnemonic token = .ok numeral) : numeral.token = token := by
  unfold Numeral.read at success
  split at success
  · rename_i spelled
    cases success
    exact Numeral.token_of_ofToken? spelled
  · cases success

/-- Read a token as a term: a number must be a numeral, any other token is a
symbol. -/
def Term.read (mnemonic : String) (token : Token) : Except Fault Term :=
  if token.isNumber then (Numeral.read mnemonic token).map .number
  else .ok (.symbol token.text)

theorem Term.text_of_read {mnemonic : String} {token : Token} {term : Term}
    (success : Term.read mnemonic token = .ok term) : term.text = token.text := by
  unfold Term.read at success
  split at success
  · cases reading : Numeral.read mnemonic token with
    | error fault => simp [reading, Except.map] at success
    | ok numeral =>
        simp only [reading, Except.map, Except.ok.injEq] at success
        subst success
        simp [Term.text, ← Numeral.token_of_read reading, Numeral.token]
  · cases success
    rfl

namespace Expression

/-- Read the operator and the second numeral after a term, if the expression
goes on. -/
def readArithmetic (mnemonic : String) (term : Term) (first : Token) :
    List Token → Reading Expression
  | [] => ⟨.ok ⟨term, none⟩, [first], []⟩
  | [sign] =>
      match Operator.ofSymbol? sign.text with
      | some _ =>
          ⟨.error (.missingOperand mnemonic "an operand after the operator"), [first, sign], []⟩
      | none => ⟨.ok ⟨term, none⟩, [first], [sign]⟩
  | sign :: second :: rest =>
      match Operator.ofSymbol? sign.text with
      | some operator =>
          ⟨(Numeral.read mnemonic second).map fun numeral => ⟨term, some (operator, numeral)⟩,
            [first, sign, second], rest⟩
      | none =>
          if second.isNumber then
            ⟨.error (.unknownOperator sign.text), [first, sign, second], rest⟩
          else ⟨.ok ⟨term, none⟩, [first], sign :: second :: rest⟩

/-- Read an address expression from the front of a list of tokens. -/
def read (mnemonic : String) : List Token → Reading Expression
  | [] => ⟨.error (.missingOperand mnemonic "an address expression"), [], []⟩
  | first :: rest =>
      match Term.read mnemonic first with
      | .error fault => ⟨.error fault, [first], rest⟩
      | .ok term => readArithmetic mnemonic term first rest

/-- No token is lost or moved by reading: the taken ones come first. -/
theorem taken_append_rest (mnemonic : String) (tokens : List Token) :
    (read mnemonic tokens).taken ++ (read mnemonic tokens).rest = tokens := by
  unfold read
  split
  · rfl
  · split
    · rfl
    · unfold readArithmetic
      split
      · rfl
      · split <;> rfl
      · split
        · rfl
        · split <;> rfl

/-- The tokens that spell an expression. -/
def tokens (expression : Expression) : List Token :=
  ⟨expression.term.text⟩ :: match expression.arithmetic with
    | none => []
    | some (operator, numeral) => [⟨operator.symbol⟩, numeral.token]

/-- The tokens of an expression that was read are the ones that were taken. -/
theorem tokens_of_read {mnemonic : String} {tokens : List Token} {expression : Expression}
    (success : (read mnemonic tokens).outcome = .ok expression) :
    expression.tokens = (read mnemonic tokens).taken := by
  cases tokens with
  | nil => cases success
  | cons first rest =>
      cases reading : Term.read mnemonic first with
      | error fault => simp [read, reading] at success
      | ok term =>
          have spelled := Term.text_of_read reading
          simp only [read, reading] at success ⊢
          match rest with
          | [] =>
              cases success
              simp [readArithmetic, Expression.tokens, spelled]
          | [sign] =>
              cases known : Operator.ofSymbol? sign.text with
              | some operator => simp [readArithmetic, known] at success
              | none =>
                  simp only [readArithmetic, known, Except.ok.injEq] at success ⊢
                  subst success
                  simp [Expression.tokens, spelled]
          | sign :: second :: rest =>
              cases known : Operator.ofSymbol? sign.text with
              | none =>
                  by_cases number : second.isNumber
                  · simp [readArithmetic, known, number] at success
                  · simp only [readArithmetic, known, number] at success ⊢
                    cases success
                    simp [Expression.tokens, spelled]
              | some operator =>
                  cases operand : Numeral.read mnemonic second with
                  | error fault => simp [readArithmetic, known, operand, Except.map] at success
                  | ok numeral =>
                      simp only [readArithmetic, known, operand, Except.map, Except.ok.injEq]
                        at success ⊢
                      subst success
                      simp [Expression.tokens, spelled, Operator.symbol_of_ofSymbol? known,
                        Numeral.token_of_read operand]

/-- The value of an expression.  Arithmetic on a symbol without an address
leaves the symbol's value as it is. -/
def evaluate (expression : Expression) (symbols : SymbolTable) :
    Except ArithmeticFault Symbol.Value :=
  match expression.term.value symbols, expression.arithmetic with
  | .address place, some (operator, numeral) =>
      (operator.apply place.value numeral.value.value).map .address
  | value, _ => .ok value

end Expression
end FirstPass
