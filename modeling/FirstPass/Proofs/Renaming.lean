import FirstPass.Proofs.Lexicon
import FirstPass.Proofs.Moves
import FirstPass.Proofs.Words
import Mathlib.Logic.Function.Basic

namespace FirstPass

/-!
Renaming the words of a program.

The spelling of a symbol matters only as far as two symbols are the same or
not.  A renaming replaces words one to one and keeps those that are spelled
for their meaning: the words of the instruction set, numbers and operators.
A renamed line is therefore read as the line is, with its names replaced.
-/

/-! ## Renamed statements and reports -/

section Rename

variable (spell : String → String)

def Token.rename (token : Token) : Token :=
  ⟨spell token.text⟩

@[simp] theorem Token.text_rename (token : Token) : (token.rename spell).text = spell token.text :=
  rfl

/-- A fault names symbols and operands; the mnemonic it names is kept. -/
def Fault.rename : Fault → Fault
  | .unresolvedSymbol name => .unresolvedSymbol (spell name)
  | .unplacedSymbol name => .unplacedSymbol (spell name)
  | .badOperand mnemonic operand => .badOperand mnemonic (spell operand)
  | .unknownOperator text => .unknownOperator (spell text)
  | fault => fault

def Term.rename : Term → Term
  | .number numeral => .number numeral
  | .symbol name => .symbol (spell name)

def Expression.rename (expression : Expression) : Expression :=
  { expression with term := expression.term.rename spell }

def Reading.rename (reading : Reading Expression) : Reading Expression where
  outcome := (reading.outcome.mapError (Fault.rename spell)).map (Expression.rename spell)
  taken := reading.taken.map (Token.rename spell)
  rest := reading.rest.map (Token.rename spell)

def Operation.rename : Operation → Operation
  | .origin target => .origin (target.rename spell)
  | .equate label meaning => .equate (label.map spell) (meaning.rename spell)
  | .malformed operands fault =>
      .malformed (operands.map (Token.rename spell)) (fault.rename spell)
  | operation => operation

def Statement.rename : Statement → Statement
  | .instruction mnemonic descriptor operation =>
      .instruction mnemonic descriptor (operation.rename spell)
  | .label name => .label (spell name)
  | .reference name => .reference (spell name)
  | statement => statement

def Record.rename : Record → Record
  | .reference name index => .reference (spell name) index
  | .label name => .label (spell name)
  | record => record

def Lexicon.rename {Meaning : Type} (lexicon : Lexicon Meaning) : Lexicon Meaning :=
  ofList (lexicon.toList.map fun entry => (spell entry.1, entry.2))

def SymbolTable.rename (table : SymbolTable) : SymbolTable :=
  ⟨table.order.map spell, table.values.rename spell⟩

def AssembledLine.rename (line : AssembledLine) : AssembledLine :=
  { line with
    records := line.records.map (Record.rename spell)
    faults := line.faults.map (Fault.rename spell) }

def Report.rename (report : Report) : Report :=
  { report with
    lines := report.lines.map (AssembledLine.rename spell)
    symbols := report.symbols.rename spell }

theorem Fault.rename_ofRefusal (mnemonic : String) (refusal : LocationCounter.Refusal) :
    (ofRefusal mnemonic refusal).rename spell = ofRefusal mnemonic refusal := by
  cases refusal <;> rfl

theorem Fault.rename_ofArithmetic (fault : ArithmeticFault) :
    (ofArithmetic fault).rename spell = ofArithmetic fault := by
  cases fault <;> rfl

theorem Statement.label?_rename (statement : Statement) :
    (statement.rename spell).label? = statement.label?.map spell := by
  cases statement <;> rfl

theorem Expression.length_tokens_rename (expression : Expression) :
    (expression.rename spell).tokens.length = expression.tokens.length := by
  simp only [tokens, Expression.rename, List.length_cons]

/-- A renamed statement takes as many tokens. -/
theorem Statement.length_operands_rename (statement : Statement) :
    (statement.rename spell).operands.length = statement.operands.length := by
  cases statement with
  | instruction mnemonic descriptor operation =>
      cases operation with
      | origin target => exact target.length_tokens_rename spell
      | equate label meaning => exact meaning.length_tokens_rename spell
      | malformed operands fault => exact List.length_map _
      | _ => rfl
  | _ => rfl

end Rename

/-! ## Renamings -/

namespace InstructionSet

variable {set : InstructionSet} {word : String}

theorem mem_words_of_instruction? (found : (set.instruction? word).isSome = true) :
    word ∈ set.words :=
  List.mem_append_left _ (List.mem_append_left _ (Lexicon.isSome_lookup_iff.mp found))

theorem mem_words_of_register? (found : (set.register? word).isSome = true) : word ∈ set.words :=
  List.mem_append_left _ (List.mem_append_right _ (Lexicon.isSome_lookup_iff.mp found))

theorem mem_words_of_condition? (found : (set.condition? word).isSome = true) : word ∈ set.words :=
  List.mem_append_right _ (Lexicon.isSome_lookup_iff.mp found)

end InstructionSet

/-- A one-to-one replacement of words that keeps the words with a meaning of
their own. -/
structure Renaming (set : InstructionSet) where
  replace : Word → Word
  injective : Function.Injective replace
  keeps_known : ∀ word, word.text ∈ set.words → replace word = word
  keeps_number : ∀ word, (Token.mk word.text).isNumber = true → replace word = word
  keeps_operator : ∀ word, (Operator.ofSymbol? word.text).isSome = true → replace word = word

namespace Renaming

variable {set : InstructionSet} (naming : Renaming set)

/-- A text that is no word is left as it is. -/
def text (text : String) : String :=
  if solid : Token.Solid text.toList then (naming.replace ⟨text, solid⟩).text else text

theorem text_of_solid {text : String} (solid : Token.Solid text.toList) :
    naming.text text = (naming.replace ⟨text, solid⟩).text :=
  dif_pos solid

theorem text_of_not_solid {text : String} (notSolid : ¬ Token.Solid text.toList) :
    naming.text text = text :=
  dif_neg notSolid

theorem solid_text {text : String} :
    Token.Solid (naming.text text).toList ↔ Token.Solid text.toList := by
  by_cases solid : Token.Solid text.toList
  · rw [naming.text_of_solid solid]
    exact iff_of_true (Word.solid _) solid
  · rw [naming.text_of_not_solid solid]

theorem text_injective : Function.Injective naming.text := by
  intro one other same
  -- Words become words and other texts stay what they are, so a word and another text never meet.
  by_cases solid : Token.Solid one.toList
  · have otherSolid : Token.Solid other.toList := by
      rw [← naming.solid_text, ← same, naming.solid_text]
      exact solid
    rw [naming.text_of_solid solid, naming.text_of_solid otherSolid] at same
    have words : (⟨one, solid⟩ : Word) = ⟨other, otherSolid⟩ := by
      apply naming.injective
      rcases first : naming.replace ⟨one, solid⟩ with ⟨text, _⟩
      rcases second : naming.replace ⟨other, otherSolid⟩ with ⟨text', _⟩
      rw [first, second] at same
      cases same
      rfl
    exact congrArg Word.text words
  · have otherNotSolid : ¬ Token.Solid other.toList := by
      rw [← naming.solid_text, ← same, naming.solid_text]
      exact solid
    rw [naming.text_of_not_solid solid, naming.text_of_not_solid otherNotSolid] at same
    exact same

/-- A text is kept if it is kept as a word. -/
theorem text_of_keeps {text : String}
    (keeps : ∀ word : Word, word.text = text → naming.replace word = word) :
    naming.text text = text := by
  by_cases solid : Token.Solid text.toList
  · rw [naming.text_of_solid solid, keeps ⟨text, solid⟩ rfl]
  · exact naming.text_of_not_solid solid

/-- Whatever is known only of kept texts is known of a text exactly if it is
known of the renamed one. -/
theorem lookup_text {Answer : Type} (lookup : String → Option Answer)
    (kept : ∀ text, (lookup text).isSome = true → naming.text text = text) (text : String) :
    lookup (naming.text text) = lookup text := by
  cases found : lookup text with
  | some answer => rw [kept text (by rw [found]; rfl), found]
  | none =>
      cases renamed : lookup (naming.text text) with
      | none => rfl
      | some answer =>
          have unchanged := naming.text_injective (kept _ (by rw [renamed]; rfl))
          rw [unchanged, found] at renamed
          cases renamed

theorem text_of_mem_words {text : String} (known : text ∈ set.words) : naming.text text = text := by
  apply naming.text_of_keeps
  rintro word rfl
  exact naming.keeps_known word known

theorem text_of_isNumber {text : String} (isNumber : (Token.mk text).isNumber = true) :
    naming.text text = text := by
  apply naming.text_of_keeps
  rintro word rfl
  exact naming.keeps_number word isNumber

theorem ofSymbol?_text (text : String) :
    Operator.ofSymbol? (naming.text text) = Operator.ofSymbol? text := by
  apply naming.lookup_text
  intro operator isOperator
  apply naming.text_of_keeps
  rintro word rfl
  exact naming.keeps_operator word isOperator

theorem instruction?_text (text : String) :
    set.instruction? (naming.text text) = set.instruction? text := by
  apply naming.lookup_text
  intro word found
  exact naming.text_of_mem_words (InstructionSet.mem_words_of_instruction? found)

theorem register?_text (text : String) : set.register? (naming.text text) = set.register? text := by
  apply naming.lookup_text
  intro word found
  exact naming.text_of_mem_words (InstructionSet.mem_words_of_register? found)

theorem condition?_text (text : String) :
    set.condition? (naming.text text) = set.condition? text := by
  apply naming.lookup_text
  intro word found
  exact naming.text_of_mem_words (InstructionSet.mem_words_of_condition? found)

theorem isNumber_rename (token : Token) : (token.rename naming.text).isNumber = token.isNumber := by
  have same := naming.lookup_text (fun text => if (Token.mk text).isNumber then some () else none)
    (fun text found => naming.text_of_isNumber (by simpa using found)) token.text
  by_cases isNumber : token.isNumber = true
  · simpa [Token.rename, isNumber] using same
  · simpa [Token.rename, isNumber] using same

theorem ofToken?_rename (token : Token) :
    Numeral.ofToken? (token.rename naming.text) = Numeral.ofToken? token := by
  by_cases isNumber : token.isNumber = true
  · rw [Token.rename, naming.text_of_isNumber isNumber]
  · rw [Numeral.ofToken?, naming.isNumber_rename, if_neg isNumber, Numeral.ofToken?,
      if_neg isNumber]

/-! ## Reading renamed tokens -/

theorem numeral_read (mnemonic : String) (token : Token) :
    Numeral.read mnemonic (token.rename naming.text) =
      (Numeral.read mnemonic token).mapError (Fault.rename naming.text) := by
  unfold Numeral.read
  rw [naming.ofToken?_rename]
  cases Numeral.ofToken? token <;> rfl

theorem term_read (mnemonic : String) (token : Token) :
    Term.read mnemonic (token.rename naming.text) =
      ((Term.read mnemonic token).mapError (Fault.rename naming.text)).map
        (Term.rename naming.text) := by
  unfold Term.read
  rw [naming.isNumber_rename, naming.numeral_read]
  by_cases isNumber : token.isNumber = true
  · rw [if_pos isNumber, if_pos isNumber]
    cases Numeral.read mnemonic token <;> rfl
  · rw [if_neg isNumber, if_neg isNumber]
    rfl

theorem expression_readArithmetic (mnemonic : String) (term : Term) (first : Token)
    (rest : List Token) :
    Expression.readArithmetic mnemonic (term.rename naming.text) (first.rename naming.text)
        (rest.map (Token.rename naming.text)) =
      (Expression.readArithmetic mnemonic term first rest).rename naming.text := by
  rcases rest with _ | ⟨sign, _ | ⟨second, rest⟩⟩
  · rfl
  · simp only [List.map_cons, List.map_nil, Expression.readArithmetic, Token.text_rename,
      naming.ofSymbol?_text]
    cases Operator.ofSymbol? sign.text <;> rfl
  · simp only [List.map_cons, Expression.readArithmetic, Token.text_rename, naming.ofSymbol?_text,
      naming.isNumber_rename, naming.numeral_read]
    cases Operator.ofSymbol? sign.text with
    | some operator => cases Numeral.read mnemonic second <;> rfl
    | none => cases second.isNumber <;> rfl

theorem expression_read (mnemonic : String) (tokens : List Token) :
    Expression.read mnemonic (tokens.map (Token.rename naming.text)) =
      (Expression.read mnemonic tokens).rename naming.text := by
  cases tokens with
  | nil => rfl
  | cons first rest =>
      simp only [List.map_cons, Expression.read, naming.term_read]
      cases Term.read mnemonic first with
      | error fault => rfl
      | ok term => exact naming.expression_readArithmetic mnemonic term first rest

theorem operation_readNumeral (mnemonic expected : String) {operation : Numeral → Operation}
    (kept : ∀ numeral, (operation numeral).rename naming.text = operation numeral)
    (rest : List Token) :
    Operation.readNumeral mnemonic expected operation (rest.map (Token.rename naming.text)) =
      (Operation.readNumeral mnemonic expected operation rest).rename naming.text := by
  cases rest with
  | nil => rfl
  | cons operand rest =>
      simp only [List.map_cons, Operation.readNumeral, naming.numeral_read]
      cases Numeral.read mnemonic operand with
      | error fault => rfl
      | ok numeral => exact (kept numeral).symm

theorem operation_readExpression (mnemonic : String) {operation renamed : Expression → Operation}
    (commutes : ∀ expression,
      renamed (expression.rename naming.text) = (operation expression).rename naming.text)
    (rest : List Token) :
    Operation.readExpression mnemonic renamed (rest.map (Token.rename naming.text)) =
      (Operation.readExpression mnemonic operation rest).rename naming.text := by
  unfold Operation.readExpression
  rw [naming.expression_read]
  rcases Expression.read mnemonic rest with ⟨outcome, taken, left⟩
  cases outcome with
  | error fault => rfl
  | ok expression => exact commutes expression

theorem operation_read (mnemonic : String) (role : Role) (label : Option String)
    (rest : List Token) :
    Operation.read mnemonic role (label.map naming.text) (rest.map (Token.rename naming.text)) =
      (Operation.read mnemonic role label rest).rename naming.text := by
  cases role with
  | start => exact naming.operation_readNumeral mnemonic _ (fun _ => rfl) rest
  | reserve => exact naming.operation_readNumeral mnemonic _ (fun _ => rfl) rest
  | origin => exact naming.operation_readExpression mnemonic (fun _ => rfl) rest
  | equate => exact naming.operation_readExpression mnemonic (fun _ => rfl) rest
  | finish => rfl
  | plain => rfl

theorem statement_read (label : Option String) (token : Token) (rest : List Token) :
    Statement.read set (label.map naming.text) (token.rename naming.text)
        (rest.map (Token.rename naming.text)) =
      (Statement.read set label token rest).rename naming.text := by
  unfold Statement.read
  rw [naming.isNumber_rename, Token.text_rename, naming.instruction?_text, naming.register?_text,
    naming.condition?_text, List.isEmpty_map]
  -- A word with a meaning of its own is spelled as before.
  cases isInstruction : set.instruction? token.text with
  | some descriptor =>
      have known := InstructionSet.mem_words_of_instruction? (Option.isSome_of_mem isInstruction)
      simp only [naming.text_of_mem_words known, naming.operation_read, Statement.rename]
  | none =>
      cases isRegister : set.register? token.text with
      | some code =>
          have known := InstructionSet.mem_words_of_register? (Option.isSome_of_mem isRegister)
          simp only [naming.text_of_mem_words known, Statement.rename]
      | none =>
          cases isCondition : set.condition? token.text with
          | some code =>
              have known :=
                InstructionSet.mem_words_of_condition? (Option.isSome_of_mem isCondition)
              simp only [naming.text_of_mem_words known, Statement.rename]
          | none =>
              by_cases isNumber : token.isNumber = true
              · simp only [if_pos isNumber, naming.text_of_isNumber isNumber, Statement.rename]
              · simp only [if_neg isNumber]
                cases rest <;> rfl

/-- The statements of renamed tokens are the renamed statements. -/
theorem statement_readAll (label : Option String) (tokens : List Token) :
    Statement.readAll set (label.map naming.text) (tokens.map (Token.rename naming.text)) =
      (Statement.readAll set label tokens).map (Statement.rename naming.text) := by
  fun_induction Statement.readAll set label tokens with
  | case1 => rw [List.map_nil, List.map_nil, Statement.readAll]
  | case2 label token rest statement ih =>
      have label? : (statement.label?.map naming.text).or (label.map naming.text) =
          (statement.label?.or label).map naming.text := by
        cases statement.label? <;> rfl
      rw [List.map_cons, List.map_cons, Statement.readAll, naming.statement_read,
        Statement.label?_rename, Statement.length_operands_rename, ← List.map_drop]
      rw [label?, ih]

/-- A line with every word replaced where it stands. -/
def line (line : String) : String :=
  String.ofList (Token.replaceWords (fun word => (naming.text (String.ofList word)).toList)
    line.toList)

theorem scan_line (line : String) :
    Token.scan (naming.line line) = (Token.scan line).map (Token.rename naming.text) := by
  have solid : ∀ word, Token.Solid word →
      Token.Solid (naming.text (String.ofList word)).toList := by
    intro word solid
    rw [naming.solid_text, String.toList_ofList]
    exact solid
  unfold Token.scan Renaming.line
  rw [String.toList_ofList, Token.words_replaceWords solid, List.map_map, List.map_map]
  apply List.map_congr_left
  intro word _
  simp only [Function.comp_apply, String.ofList_toList, Token.rename]

/-- The statements of a renamed line are the renamed statements of the line. -/
theorem ofLine_line (line : String) :
    Statement.ofLine set (naming.line line) =
      (Statement.ofLine set line).map (Statement.rename naming.text) := by
  unfold Statement.ofLine
  rw [naming.scan_line]
  exact naming.statement_readAll none (Token.scan line)

end Renaming
end FirstPass
