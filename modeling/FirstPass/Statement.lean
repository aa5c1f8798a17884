import FirstPass.Expression
import FirstPass.InstructionSet

namespace FirstPass

/-!
Statements: what the tokens of a line say.

A line is read from left to right into statements.  A mnemonic takes its
operands with it; every other statement is one token.  How a line falls into
statements depends on its tokens and on the instruction set, never on the
symbols or on the location counter, so a line is read completely before any
of it is carried out.

A word that is a mnemonic, a register, a condition or a number is taken as
such, in this order.  Any other word is a symbol: a reference if it ends the
line, and otherwise a label.  An equation defines the label nearest before it
on its line.
-/

/-- What a mnemonic asks for, with its operands.  Operands that could not be
read are kept with their fault. -/
inductive Operation
  | start (address : Numeral)
  | finish
  | origin (target : Expression)
  | equate (label : Option String) (meaning : Expression)
  | reserve (count : Numeral)
  | word
  | malformed (operands : List Token) (fault : Fault)
deriving DecidableEq, Repr

namespace Operation

/-- The tokens after the mnemonic that belong to an operation. -/
def operands : Operation → List Token
  | .start numeral | .reserve numeral => [numeral.token]
  | .origin expression | .equate _ expression => expression.tokens
  | .finish | .word => []
  | .malformed operands _ => operands

/-- Read an operation with one numeral. -/
def readNumeral (mnemonic expected : String) (operation : Numeral → Operation) :
    List Token → Operation
  | [] => .malformed [] (.missingOperand mnemonic expected)
  | operand :: _ =>
      match Numeral.read mnemonic operand with
      | .ok numeral => operation numeral
      | .error fault => .malformed [operand] fault

/-- Read an operation with an address expression. -/
def readExpression (mnemonic : String) (operation : Expression → Operation) (rest : List Token) :
    Operation :=
  let reading := Expression.read mnemonic rest
  match reading.outcome with
  | .ok expression => operation expression
  | .error fault => .malformed reading.taken fault

/-- Read the operation of a mnemonic from the tokens after it. -/
def read (mnemonic : String) (role : Role) (label : Option String) (rest : List Token) :
    Operation :=
  match role with
  | .start => readNumeral mnemonic "a starting address" .start rest
  | .finish => .finish
  | .origin => readExpression mnemonic .origin rest
  | .equate => readExpression mnemonic (.equate label) rest
  | .reserve => readNumeral mnemonic "a word count" .reserve rest
  | .plain => .word

theorem operands_readNumeral (mnemonic expected : String) {operation : Numeral → Operation}
    (shown : ∀ numeral, (operation numeral).operands = [numeral.token]) (rest : List Token) :
    (readNumeral mnemonic expected operation rest).operands <+: rest := by
  unfold readNumeral
  split
  · exact List.nil_prefix
  · split
    · rename_i success
      rw [shown, Numeral.token_of_read success]
      exact ⟨_, rfl⟩
    · exact ⟨_, rfl⟩

theorem operands_readExpression (mnemonic : String) {operation : Expression → Operation}
    (shown : ∀ expression, (operation expression).operands = expression.tokens)
    (rest : List Token) :
    (readExpression mnemonic operation rest).operands <+: rest := by
  have whole := Expression.taken_append_rest mnemonic rest
  cases reading : (Expression.read mnemonic rest).outcome with
  | ok expression =>
      simp only [readExpression, reading, shown, Expression.tokens_of_read reading]
      exact ⟨_, whole⟩
  | error fault =>
      simp only [readExpression, reading, operands]
      exact ⟨_, whole⟩

/-- The operands of an operation stand directly after its mnemonic. -/
theorem operands_read (mnemonic : String) (role : Role) (label : Option String)
    (rest : List Token) :
    (read mnemonic role label rest).operands <+: rest := by
  cases role with
  | start => exact operands_readNumeral _ _ (fun _ => rfl) rest
  | reserve => exact operands_readNumeral _ _ (fun _ => rfl) rest
  | origin => exact operands_readExpression _ (fun _ => rfl) rest
  | equate => exact operands_readExpression _ (fun _ => rfl) rest
  | finish => exact List.nil_prefix
  | plain => exact List.nil_prefix

end Operation

inductive Statement
  | instruction (mnemonic : String) (descriptor : Descriptor) (operation : Operation)
  | register (word : String) (code : OperandCode)
  | condition (word : String) (code : OperandCode)
  | constant (digits : String)
  | label (name : String)
  | reference (name : String)
deriving DecidableEq, Repr

namespace Statement

/-- The token that a statement starts with. -/
def head : Statement → Token
  | .instruction mnemonic _ _ => ⟨mnemonic⟩
  | .register word _ | .condition word _ => ⟨word⟩
  | .constant digits => ⟨digits⟩
  | .label name | .reference name => ⟨name⟩

/-- The tokens of a statement after its first. -/
def operands : Statement → List Token
  | .instruction _ _ operation => operation.operands
  | _ => []

/-- The tokens of a statement. -/
def tokens (statement : Statement) : List Token :=
  statement.head :: statement.operands

/-- The label that a statement defines. -/
def label? : Statement → Option String
  | .label name => some name
  | _ => none

/-- Read the statement that starts with a token.  The label is the one
nearest before it on the line. -/
def read (set : InstructionSet) (label : Option String) (token : Token) (rest : List Token) :
    Statement :=
  match set.instruction? token.text with
  | some descriptor =>
      .instruction token.text descriptor
        (Operation.read token.text descriptor.role label rest)
  | none => match set.register? token.text with
    | some code => .register token.text code
    | none => match set.condition? token.text with
      | some code => .condition token.text code
      | none =>
          if token.isNumber then .constant token.text
          else if rest.isEmpty then .reference token.text
          else .label token.text

theorem head_read (set : InstructionSet) (label : Option String) (token : Token)
    (rest : List Token) :
    (read set label token rest).head = token := by
  unfold read
  repeat' split
  all_goals rfl

theorem operands_read (set : InstructionSet) (label : Option String) (token : Token)
    (rest : List Token) : (read set label token rest).operands <+: rest := by
  unfold read
  repeat' split
  case h_1 => exact Operation.operands_read _ _ _ _
  all_goals exact List.nil_prefix

/-- Read all statements of a list of tokens. -/
def readAll (set : InstructionSet) (label : Option String) : List Token → List Statement
  | [] => []
  | token :: rest =>
      let statement := read set label token rest
      statement :: readAll set (statement.label?.or label) (rest.drop statement.operands.length)
termination_by tokens => tokens.length
decreasing_by simp only [List.length_drop, List.length_cons]; omega

/-- Every token belongs to one statement, in order. -/
theorem tokens_readAll (set : InstructionSet) (label : Option String) (tokens : List Token) :
    (readAll set label tokens).flatMap Statement.tokens = tokens := by
  fun_induction readAll set label tokens with
  | case1 => rfl
  | case2 label token rest statement ih =>
      have whole := List.prefix_iff_eq_append.mp (operands_read set label token rest)
      rw [List.flatMap_cons, ih, Statement.tokens, head_read set label token rest, List.cons_append,
        whole]

/-- The statements of a line. -/
def ofLine (set : InstructionSet) (line : String) : List Statement :=
  readAll set none (Token.scan line)

end Statement
end FirstPass
