import FirstPass.Proofs.Numerals
import FirstPass.Proofs.Relocation
import FirstPass.Proofs.Words

namespace FirstPass

/-!
Relocating a program.

A program is relocated by moving all its starts by the same distance.  Its
lines are then either starts that were moved or lines that did not change, and
what a line may contain decides whether its statements keep the distance.
-/

variable {distance : Int}

/-! ## Relative lines -/

/-- The starting address of a line that is a start and nothing else. -/
def startingAddress? : List Token → Option Numeral
  | [directive, operand] => if directive = ⟨"START"⟩ then Numeral.ofToken? operand else none
  | _ => none

/-- The line with its start at a distance. -/
def relocate (distance : Int) (line : String) : String :=
  match startingAddress? (Token.scan line) with
  | some numeral => "START " ++ Decimal.ofInt (numeral.value.value + distance)
  | none => line

/-- A line that can be relocated: it is a start and nothing else, with both
starting addresses in range, or else it has no start.  It has no product and no
quotient, and no move or equation that begins with a number. -/
structure Relocatable (distance : Int) (line : String) : Prop where
  starts : ⟨"START"⟩ ∈ Token.scan line → ∃ numeral ∈ startingAddress? (Token.scan line),
    0 ≤ numeral.value.value + distance ∧ numeral.value.value + distance ≤ 9223372036854775807
  noProduct : ⟨"*"⟩ ∉ Token.scan line
  noQuotient : ⟨"/"⟩ ∉ Token.scan line
  symbolic : (Token.scan line).IsChain fun token next =>
    token.text = "ORIGIN" ∨ token.text = "EQU" → next.isNumber = false

instance (distance : Int) (line : String) : Decidable (Relocatable distance line) :=
  decidable_of_iff
    ((⟨"START"⟩ ∈ Token.scan line → ∃ numeral ∈ startingAddress? (Token.scan line),
        0 ≤ numeral.value.value + distance ∧ numeral.value.value + distance ≤ 9223372036854775807) ∧
      ⟨"*"⟩ ∉ Token.scan line ∧ ⟨"/"⟩ ∉ Token.scan line ∧
      (Token.scan line).IsChain fun token next =>
        token.text = "ORIGIN" ∨ token.text = "EQU" → next.isNumber = false)
    ⟨fun all => ⟨all.1, all.2.1, all.2.2.1, all.2.2.2⟩,
      fun line => ⟨line.starts, line.noProduct, line.noQuotient, line.symbolic⟩⟩

theorem Relocatable.relative {line : String} (relocatable : Relocatable distance line)
    {mnemonic : Token} {expression : Expression}
    (inLine : mnemonic :: expression.tokens <:+: Token.scan line)
    (directive : mnemonic.text = "ORIGIN" ∨ mnemonic.text = "EQU")
    (numbers : ∀ numeral ∈ expression.numerals, numeral.token.isNumber = true) :
    expression.Relative where
  symbolic := by
    intro numeral isNumber
    have first : [mnemonic, numeral.token] <+: mnemonic :: expression.tokens := by
      rw [Expression.tokens, isNumber]
      exact ⟨_, rfl⟩
    have adjacent := relocatable.symbolic.infix (first.isInfix.trans inLine)
    have notNumber := List.isChain_pair.mp adjacent directive
    have member : numeral ∈ expression.numerals := by
      rw [Expression.numerals, isNumber]
      exact List.mem_cons_self
    cases notNumber.symm.trans (numbers numeral member)
  additive := by
    intro operator numeral isArithmetic
    have member : ⟨operator.symbol⟩ ∈ Token.scan line := by
      apply inLine.subset
      rw [Expression.tokens, isArithmetic]
      simp
    cases operator with
    | add => exact Or.inl rfl
    | subtract => exact Or.inr rfl
    | multiply => exact absurd member relocatable.noProduct
    | divide => exact absurd member relocatable.noQuotient

/-- In the standard instruction set three names start, move and equate, and the
code of a start is that of no other mnemonic. -/
theorem InstructionSet.directive_of_standard {mnemonic : String} {descriptor : Descriptor}
    (known : standard.instruction? mnemonic = some descriptor) :
    (descriptor.role = .start → mnemonic = "START") ∧
      (descriptor.role = .origin → mnemonic = "ORIGIN") ∧
      (descriptor.role = .equate → mnemonic = "EQU") ∧
      (.ofDescriptor none descriptor = Record.start → mnemonic = "START") := by
  have every : ∀ entry ∈ standard.mnemonics,
      (entry.2.role = .start → entry.1 = "START") ∧ (entry.2.role = .origin → entry.1 = "ORIGIN") ∧
        (entry.2.role = .equate → entry.1 = "EQU") ∧
        (.ofDescriptor none entry.2 = Record.start → entry.1 = "START") := by
    decide +kernel
  exact every (mnemonic, descriptor) (mem_mnemonics known)

/-- Without a start, the statements of a relocatable line are relative. -/
theorem Relocatable.relative_of_mem {line : String} (relocatable : Relocatable distance line)
    (noStart : ⟨"START"⟩ ∉ Token.scan line) {statement : Statement}
    (member : statement ∈ Statement.ofLine .standard line) : statement.Relative := by
  cases statement with
  | instruction mnemonic descriptor operation =>
      have inLine := Statement.tokens_infix_of_mem member
      rcases Statement.read_of_instruction_mem_readAll member with ⟨known, nearest, rest, wasRead⟩
      rcases InstructionSet.directive_of_standard known with ⟨starts, moves, equates, shownAsStart⟩
      have notStart : mnemonic ≠ "START" := by
        rintro rfl
        exact noStart (inLine.subset List.mem_cons_self)
      have numbers : ∀ numeral ∈ operation.numerals, numeral.token.isNumber = true := by
        intro numeral inOperation
        rw [wasRead] at inOperation
        exact Operation.isNumber_of_mem_numerals inOperation
      refine ⟨fun isStart => notStart (shownAsStart isStart), ?_⟩
      cases operation with
      | start numeral => exact notStart (starts (Statement.descriptor_role_of_role? member rfl))
      | origin target =>
          have named := moves (Statement.descriptor_role_of_role? member rfl)
          exact relocatable.relative inLine (Or.inl named) numbers
      | equate label meaning =>
          have named := equates (Statement.descriptor_role_of_role? member rfl)
          exact relocatable.relative inLine (Or.inr named) numbers
      | finish => trivial
      | reserve count => trivial
      | word => trivial
      | malformed operands fault => trivial
  | _ => trivial

/-! ## Lines that start the counter -/

theorem Token.scan_start {text : String} (solid : Solid text.toList) :
    scan ("START " ++ text) = [⟨"START"⟩, ⟨text⟩] := by
  have split : ("START " ++ text).toList = "START".toList ++ ' ' :: text.toList := by
    rw [String.toList_append]
    rfl
  have directive : words "START".toList = ["START".toList] := by
    decide +kernel
  unfold scan
  rw [split, words_append_blank rfl, directive, words_of_no_blank solid.nonempty solid.unbroken]
  simp only [List.singleton_append, List.map_cons, List.map_nil, String.ofList_toList]

/-- What the standard instruction set says about a start. -/
def Descriptor.start : Descriptor :=
  ⟨⟨1⟩, .directive, .start⟩

theorem Statement.ofLine_start {line : String} {numeral : Numeral}
    (spelled : Numeral.ofToken? numeral.token = some numeral)
    (isStart : Token.scan line = [⟨"START"⟩, numeral.token]) :
    ofLine .standard line = [.instruction "START" .start (.start numeral)] := by
  have known : InstructionSet.standard.instruction? "START" = some .start := by decide +kernel
  have wasRead : Operation.read "START" Descriptor.start.role none [numeral.token] =
      .start numeral := by
    simp only [Descriptor.start, Operation.read, Operation.readNumeral, Numeral.read, spelled]
  unfold ofLine
  rw [isStart, readAll, read_of_instruction? known, wasRead]
  simp only [operands, Operation.operands, List.length_singleton, List.drop_succ_cons,
    List.drop_zero, readAll]

/-- Two starts at a distance put the counter at that distance. -/
theorem Statement.relocated_start {numeral moved : Numeral}
    (values : numeral.value.Relocated distance moved.value)
    (shown : moved.digits = Decimal.ofInt (Decimal.value numeral.digits.toList + distance)) :
    (Lockstep.relocated distance).Statements (.instruction "START" .start (.start numeral))
      (.instruction "START" .start (.start moved)) := by
  intro one other relocated _ _
  have records : Record.Relocated distance [Record.start, .constant numeral.digits]
      [Record.start, .constant moved.digits] := by
    rw [shown]
    exact .started .nil
  simp only [execute, Operation.execute]
  unfold Operation.executeStart
  rcases one with ⟨symbols, counter⟩
  rcases other with ⟨symbols', counter'⟩
  cases relocated.counter with
  | unstarted => exact ⟨⟨relocated.symbols, .running values⟩, records, rfl⟩
  | running moved => exact ⟨⟨relocated.symbols, .running values⟩, records, rfl⟩
  | ended moved => exact ⟨relocated, records, rfl⟩

theorem startingAddress?_eq_some {tokens : List Token} {numeral : Numeral}
    (found : startingAddress? tokens = some numeral) :
    tokens = [⟨"START"⟩, numeral.token] ∧ Numeral.ofToken? numeral.token = some numeral := by
  unfold startingAddress? at found
  split at found
  · split at found
    · rename_i isStart
      rw [isStart, Numeral.token_of_ofToken? found]
      exact ⟨rfl, found⟩
    · cases found
  · cases found

theorem startingAddress?_of_no_start {tokens : List Token} (noStart : ⟨"START"⟩ ∉ tokens) :
    startingAddress? tokens = none := by
  cases found : startingAddress? tokens with
  | none => rfl
  | some numeral =>
      rw [(startingAddress?_eq_some found).1] at noStart
      exact absurd List.mem_cons_self noStart

/-- A line and its relocated line do the same at a distance. -/
theorem Relocatable.sources {line : String} (relocatable : Relocatable distance line) :
    (Lockstep.relocated distance).Sources .standard line (relocate distance line) := by
  unfold Lockstep.Sources relocate
  by_cases hasStart : ⟨"START"⟩ ∈ Token.scan line
  · rcases relocatable.starts hasStart with ⟨numeral, found, nonneg, bounded⟩
    rcases startingAddress?_eq_some found with ⟨isStart, spelled⟩
    rcases Numeral.exists_of_natural nonneg bounded with ⟨moved, movedSpelled, values, digits⟩
    have movedStart : Token.scan ("START " ++ moved.digits) = [⟨"START"⟩, moved.token] :=
      Token.scan_start (Token.solid_of_isNumber (Numeral.isNumber_of_ofToken? movedSpelled))
    have shown : moved.digits = Decimal.ofInt (Decimal.value numeral.digits.toList + distance) := by
      rw [digits, Numeral.value_of_ofToken? spelled]
    rw [show startingAddress? (Token.scan line) = some numeral from found]
    simp only [← digits]
    rw [Statement.ofLine_start spelled isStart, Statement.ofLine_start movedSpelled movedStart]
    exact .cons (Statement.relocated_start values shown) .nil
  · rw [startingAddress?_of_no_start hasStart, List.forall₂_same]
    intro statement member
    exact Statement.relocated_execute (relocatable.relative_of_mem hasStart member)

/-! ## The report of a relocated program -/

theorem Lockstep.Lines.relocated {one other : AssembledLine}
    (lines : (Lockstep.relocated distance).Lines one other) : one.Relocated distance other where
  number := lines.number
  records := lines.records
  faults := lines.faults.trans (List.map_id _)
  counter := lines.counters

/-- If every start of a program is moved by a distance and neither run leaves
the range of addresses, then the report is the same at that distance. -/
theorem assemble_relocated (distance : Int) (lines : List String)
    (relocatable : ∀ line ∈ lines, Relocatable distance line)
    (firstInRange : ∀ line ∈ (assemble .standard lines).lines, .addressOutOfRange ∉ line.faults)
    (secondInRange : ∀ line ∈ (assemble .standard (lines.map (relocate distance))).lines,
      .addressOutOfRange ∉ line.faults) :
    Report.Relocated distance (assemble .standard lines)
      (assemble .standard (lines.map (relocate distance))) := by
  have initial : State.Relocated distance {} {} := ⟨⟨rfl, fun _ => .none⟩, .unstarted⟩
  have sources : List.Forall₂ ((Lockstep.relocated distance).Sources .standard) lines
      (lines.map (relocate distance)) := by
    rw [List.forall₂_map_right_iff, List.forall₂_same]
    exact fun line member => (relocatable line member).sources
  rcases (Lockstep.relocated distance).reports initial sources
    (fun line member fault inLine isOutside => firstInRange line member (isOutside ▸ inLine))
    (fun line member fault inLine isOutside => secondInRange line member (isOutside ▸ inLine)) with
    ⟨correspond, last⟩
  refine ⟨correspond.imp fun _ _ => Lockstep.Lines.relocated, ?_, ?_⟩
  · rw [symbols_assemble, symbols_assemble]
    exact last.symbols.relocated
  · rw [counter_assemble, counter_assemble]
    exact last.counter

/-- A program with two starts, a forward reference and a fault, moved down so
that it begins at zero. -/
theorem assemble_relocated_to_zero :
    let lines :=
      ["START 100", "LOOP MOVER AREG LIMIT", "ORIGIN LIMIT + 1", "LIMIT DS 2", "NEXT EQU LOOP - 1",
      "START 0250", "ORIGIN NEXT + 7", "STOP", "END"]
    let moved :=
      ["START 0", "LOOP MOVER AREG LIMIT", "ORIGIN LIMIT + 1", "LIMIT DS 2", "NEXT EQU LOOP - 1",
      "START 150", "ORIGIN NEXT + 7", "STOP", "END"]
    lines.map (relocate (-100)) = moved ∧
      Report.Relocated (-100) (assemble .standard lines) (assemble .standard moved) := by
  intro lines moved
  have isMoved : lines.map (relocate (-100)) = moved := by decide +kernel
  have inRange : ∀ line ∈ (assemble .standard moved).lines, .addressOutOfRange ∉ line.faults := by
    decide +kernel
  refine ⟨isMoved, ?_⟩
  rw [← isMoved] at inRange ⊢
  exact assemble_relocated (-100) lines (by decide +kernel) (by decide +kernel) inRange

end FirstPass
