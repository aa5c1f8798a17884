import FirstPass.Proofs.Numerals
import FirstPass.Proofs.Phases

namespace FirstPass

/-!
Programs that never subtract.

Numerals are not negative, and neither is a sum, a product or a quotient of
what is not negative.  So as long as no minus sign stands on a line by itself,
the location counter and all symbols stay at or above zero.  Since an
unresolved symbol is shown as minus one, such a program shows minus one for
its unresolved symbols and for nothing else.
-/

/-- An address that is not negative. -/
def Address.IsNatural (address : Address) : Prop :=
  0 ≤ address.value ∧ address.value ≤ 9223372036854775807

theorem Address.isNatural_of_nonneg {address : Address} (nonneg : 0 ≤ address.value) :
    address.IsNatural :=
  ⟨nonneg, address.fits.2⟩

/-- Only a difference can be negative. -/
theorem Operator.exact_nonneg {operator : Operator} (additive : operator ≠ .subtract)
    {left right : Int} (leftNonneg : 0 ≤ left) (rightNonneg : 0 ≤ right) :
    0 ≤ operator.exact left right := by
  cases operator with
  | add => exact Int.add_nonneg leftNonneg rightNonneg
  | subtract => exact absurd rfl additive
  | multiply => exact Int.mul_nonneg leftNonneg rightNonneg
  | divide => exact Int.tdiv_nonneg leftNonneg rightNonneg

/-! ## Statements that do not subtract -/

/-- An expression of numerals that are not negative, without a difference. -/
structure Expression.Unsigned (expression : Expression) : Prop where
  numerals : ∀ numeral ∈ expression.numerals, 0 ≤ numeral.value.value
  additive : ∀ operator numeral, expression.arithmetic = some (operator, numeral) →
    operator ≠ .subtract

/-- An operation with numerals and expressions that have no sign. -/
def Operation.Unsigned : Operation → Prop
  | .start numeral | .reserve numeral => 0 ≤ numeral.value.value
  | .origin expression | .equate _ expression => expression.Unsigned
  | .finish | .word | .malformed _ _ => True

def Statement.Unsigned : Statement → Prop
  | .instruction _ _ operation => operation.Unsigned
  | _ => True

theorem Expression.unsigned_of_no_minus {expression : Expression}
    (natural : ∀ numeral ∈ expression.numerals, 0 ≤ numeral.value.value)
    (noMinus : ⟨"-"⟩ ∉ expression.tokens) : expression.Unsigned where
  numerals := natural
  additive := by
    intro operator numeral isArithmetic isMinus
    apply noMinus
    rw [Expression.tokens, isArithmetic, isMinus]
    exact List.mem_cons_of_mem _ List.mem_cons_self

theorem Operation.unsigned_of_no_minus {operation : Operation}
    (natural : ∀ numeral ∈ operation.numerals, 0 ≤ numeral.value.value)
    (noMinus : ⟨"-"⟩ ∉ operation.operands) : operation.Unsigned := by
  cases operation with
  | start numeral => exact natural numeral List.mem_cons_self
  | reserve numeral => exact natural numeral List.mem_cons_self
  | origin expression => exact Expression.unsigned_of_no_minus natural noMinus
  | equate label expression => exact Expression.unsigned_of_no_minus natural noMinus
  | finish => trivial
  | word => trivial
  | malformed operands fault => trivial

/-- A line without a minus sign has statements without signs only. -/
theorem Statement.unsigned_of_no_minus {set : InstructionSet} {label : Option String}
    {tokens : List Token} (noMinus : ⟨"-"⟩ ∉ tokens) {statement : Statement}
    (member : statement ∈ readAll set label tokens) : statement.Unsigned := by
  cases statement with
  | instruction mnemonic descriptor operation =>
      rcases read_of_instruction_mem_readAll member with ⟨_, nearest, rest, wasRead⟩
      refine Operation.unsigned_of_no_minus ?_ ?_
      · intro numeral inOperation
        rw [wasRead] at inOperation
        rcases Operation.ofToken?_of_mem_numerals inOperation with ⟨token, spelled⟩
        exact Numeral.nonneg_of_ofToken? spelled
      · intro inOperands
        apply noMinus
        rw [← tokens_readAll set label tokens]
        exact List.mem_flatMap.mpr ⟨_, member, List.mem_cons_of_mem _ inOperands⟩
  | _ => trivial

/-! ## What stays at or above zero -/

/-- The counter and all symbols are at or above zero. -/
structure State.Unsigned (state : State) : Prop where
  counter : ∀ address, state.counter.value = some address → 0 ≤ address.value
  symbols : ∀ name address, state.symbols.value name = .address address → 0 ≤ address.value

theorem State.unsigned_initial : Unsigned {} where
  counter := fun _ found => by cases found
  symbols := fun _ _ found => by cases found

theorem State.Unsigned.evaluate {state : State} (unsigned : state.Unsigned)
    {expression : Expression} (additive : expression.Unsigned) {address : Address}
    (evaluated : expression.evaluate state.symbols = .ok (.address address)) :
    0 ≤ address.value := by
  rcases Expression.evaluate_eq_address evaluated with ⟨place, isPlace, result⟩
  have placeNonneg : 0 ≤ place.value := by
    cases term : expression.term with
    | number numeral =>
        rw [term] at isPlace
        cases isPlace
        apply additive.numerals
        rw [Expression.numerals, term]
        exact List.mem_cons_self
    | symbol name =>
        rw [term] at isPlace
        exact unsigned.symbols name place isPlace
  rcases result with ⟨_, same⟩ | ⟨operator, numeral, isArithmetic, value⟩
  · rw [same]
    exact placeNonneg
  · rw [value]
    apply Operator.exact_nonneg (additive.additive operator numeral isArithmetic) placeNonneg
    apply additive.numerals
    rw [Expression.numerals, isArithmetic]
    exact List.mem_append_right _ List.mem_cons_self

/-- No operation takes the counter below zero. -/
theorem Operation.counter_nonneg_execute {operation : Operation} (additive : operation.Unsigned)
    {state : State} (unsigned : state.Unsigned) (mnemonic : String) (descriptor : Descriptor)
    {address : Address}
    (found : (operation.execute mnemonic descriptor state).state.counter.value = some address) :
    0 ≤ address.value := by
  cases operation with
  | start numeral =>
      rw [execute] at found
      rcases executeStart_cases mnemonic descriptor numeral state with ⟨_, done⟩ | ⟨_, refused⟩
      · rw [done] at found
        exact Option.some.inj found ▸ additive
      · rw [refused] at found
        exact unsigned.counter address found
  | finish => exact unsigned.counter address found
  | origin target =>
      rw [execute] at found
      rcases executeOrigin_cases mnemonic descriptor target state with
        ⟨_, place, _, evaluated, done⟩ | ⟨_, refused⟩
      · rw [done] at found
        exact Option.some.inj found ▸ unsigned.evaluate additive evaluated
      · rw [refused] at found
        exact unsigned.counter address found
  | equate label meaning =>
      rw [execute, counter_executeEquate] at found
      exact unsigned.counter address found
  | reserve count =>
      have countNonneg : 0 ≤ count.value.value := additive
      rw [execute] at found
      rcases executeReserve_cases mnemonic descriptor count state with
        ⟨first, next, running, moved, done⟩ | ⟨_, refused⟩
      · have firstNonneg := unsigned.counter first (by rw [running]; rfl)
        rw [done] at found
        rw [← Option.some.inj found, moved]
        exact Int.add_nonneg firstNonneg countNonneg
      · rw [refused] at found
        exact unsigned.counter address found
  | word =>
      rw [execute] at found
      rcases executeWord_cases mnemonic descriptor state with
        ⟨first, next, running, moved, done⟩ | ⟨_, refused⟩
      · have firstNonneg := unsigned.counter first (by rw [running]; rfl)
        rw [done] at found
        rw [← Option.some.inj found, moved]
        exact Int.add_nonneg firstNonneg (by decide)
      · rw [refused] at found
        exact unsigned.counter address found
  | malformed operands fault => exact unsigned.counter address found

namespace Statement

/-- A statement gives no symbol an address below zero. -/
theorem Gives.nonneg {statement : Statement} (additive : statement.Unsigned) {state : State}
    (unsigned : state.Unsigned) {name : String} {address : Address}
    (gives : statement.Gives state name (.address address)) : 0 ≤ address.value := by
  generalize isGiven : Symbol.Value.address address = given at gives
  cases gives with
  | label =>
      cases place : state.counter.value with
      | none =>
          rw [place] at isGiven
          cases isGiven
      | some here =>
          rw [place] at isGiven
          cases isGiven
          exact unsigned.counter address place
  | equation evaluated =>
      rw [← isGiven] at evaluated
      exact unsigned.evaluate additive evaluated
  | failure failed => cases isGiven

/-- One statement without signs keeps everything at or above zero. -/
theorem unsigned_execute {statement : Statement} (additive : statement.Unsigned) {state : State}
    (unsigned : state.Unsigned) : (statement.execute state).state.Unsigned where
  counter := by
    intro address found
    cases statement with
    | instruction mnemonic descriptor operation =>
        exact Operation.counter_nonneg_execute additive unsigned mnemonic descriptor found
    | label name =>
        simp only [execute, State.counter_bind] at found
        exact unsigned.counter address found
    | reference name => exact unsigned.counter address found
    | register word code => exact unsigned.counter address found
    | condition word code => exact unsigned.counter address found
    | constant digits => exact unsigned.counter address found
  symbols := by
    intro name address found
    by_cases assigns : statement.assigned? = some name
    · have gives := gives_of_assigned? assigns state
      rw [found] at gives
      exact gives.nonneg additive unsigned
    · rw [value_execute assigns] at found
      exact unsigned.symbols name address found

theorem unsigned_executeAll {statements : List Statement}
    (additive : ∀ statement ∈ statements, statement.Unsigned) {state : State}
    (unsigned : state.Unsigned) : (executeAll state statements).state.Unsigned :=
  executeAll_induction State.Unsigned
    (fun statement member _ before => unsigned_execute (additive statement member) before) unsigned

/-- A record is placed where the counter was when it was handed on. -/
theorem nonneg_of_placed {statements : List Statement}
    (additive : ∀ statement ∈ statements, statement.Unsigned) {state : State}
    (unsigned : state.Unsigned) {address : Address} {category : Category} {opcode : Opcode}
    (placed : .instruction (some address) category opcode ∈ (executeAll state statements).records) :
    0 ≤ address.value := by
  rcases exists_running_of_placed placed with ⟨earlier, later, split, running⟩
  have before : (executeAll state earlier).state.Unsigned := by
    apply unsigned_executeAll _ unsigned
    intro statement member
    apply additive
    rw [split]
    exact List.mem_append_left later member
  apply before.counter
  rw [running]
  rfl

end Statement

theorem State.unsigned_reached {set : InstructionSet} {lines : List String}
    (noMinus : ∀ line ∈ lines, ⟨"-"⟩ ∉ Token.scan line) : (reached set lines).Unsigned :=
  run_induction State.Unsigned
    (fun source member _ before => Statement.unsigned_executeAll
      (fun _ inLine => Statement.unsigned_of_no_minus (noMinus source member) inLine) before)
    unsigned_initial

/-! ## What is shown -/

/-- Of all values that are not negative, only the missing one is shown as
minus one. -/
theorem Symbol.Value.text_eq_minus_one_iff {value : Symbol.Value}
    (nonneg : ∀ address, value = .address address → 0 ≤ address.value) :
    value.text = "-1" ↔ value = .unresolved := by
  cases value with
  | unresolved => exact ⟨fun _ => rfl, fun _ => rfl⟩
  | unplaced => exact ⟨fun shown => absurd shown (by decide), fun same => by cases same⟩
  | address place =>
      refine ⟨fun shown => ?_, fun same => by cases same⟩
      have digits : place.value.toNat.repr = "-1" := by
        rw [← Decimal.ofInt_of_nonneg (nonneg place rfl)]
        exact shown
      have sign : '-' ∈ place.value.toNat.repr.toList := by
        rw [digits]
        decide
      exact absurd (Decimal.isDigit_of_mem_repr sign) (by decide)

/-- A program that never subtracts has no address below zero: no counter after
a line, no place of an instruction, no symbol.  In its symbol table minus one is
shown for the unresolved symbols, and for no others. -/
theorem addresses_natural_without_minus (set : InstructionSet) {lines : List String}
    (noMinus : ∀ line ∈ lines, ⟨"-"⟩ ∉ Token.scan line) :
    (∀ line ∈ (assemble set lines).lines,
      (∀ address, line.counter.value = some address → address.IsNatural) ∧
      ∀ address category opcode, .instruction (some address) category opcode ∈ line.records →
        address.IsNatural) ∧
    (∀ name address, (assemble set lines).symbols.find? name = some (.address address) →
      address.IsNatural) ∧
    ∀ (place : Nat) name (value : Symbol.Value),
      (assemble set lines).symbols.toList[place]? = some (name, value) →
      ((assemble set lines).symbols.lines[place]? = some ("label: " ++ name ++ ", Address: -1") ↔
        value = .unresolved) := by
  have symbols : ∀ name address, (assemble set lines).symbols.find? name = some (.address address) →
      0 ≤ address.value := by
    intro name address found
    rw [symbols_assemble] at found
    exact (State.unsigned_reached noMinus).symbols name address (SymbolTable.value_of_find? found)
  refine ⟨?_, ?_, ?_⟩
  · intro line member
    rcases List.mem_iff_getElem?.mp member with ⟨place, isLine⟩
    rw [getElem?_lines_assemble] at isLine
    rcases Option.map_eq_some_iff.mp isLine with ⟨source, isSource, same⟩
    subst same
    have before : (State.reached set (lines.take place)).Unsigned :=
      State.unsigned_reached fun line earlier => noMinus line (List.mem_of_mem_take earlier)
    have additive : ∀ statement ∈ Statement.ofLine set source, statement.Unsigned := fun _ inLine =>
      Statement.unsigned_of_no_minus (noMinus source (List.mem_of_getElem? isSource)) inLine
    refine ⟨?_, ?_⟩
    · intro address found
      exact Address.isNatural_of_nonneg
        ((Statement.unsigned_executeAll additive before).counter address found)
    · intro address category opcode placed
      exact Address.isNatural_of_nonneg (Statement.nonneg_of_placed additive before placed)
  · intro name address found
    exact Address.isNatural_of_nonneg (symbols name address found)
  · intro place name value isEntry
    have found := SymbolTable.find?_of_mem_toList (List.mem_of_getElem? isEntry)
    have ending : ", Address: -1" = ", Address: " ++ "-1" := by decide
    rw [SymbolTable.lines, List.getElem?_map, isEntry, Option.map_some, Option.some.injEq,
      SymbolTable.entryText, ending, ← String.append_assoc, String.append_right_inj]
    apply Symbol.Value.text_eq_minus_one_iff
    intro address isAddress
    exact symbols name address (isAddress ▸ found)

/-- `X` is only used, and the counter moves by a product. -/
theorem addresses_natural_without_minus_product :
    (∀ line ∈ (assemble .standard ["START 100", "L READ X", "ORIGIN L * 3", "M STOP"]).lines,
      ∀ address, line.counter.value = some address → address.IsNatural) ∧
    (assemble .standard ["START 100", "L READ X", "ORIGIN L * 3", "M STOP"]).symbols.lines[1]? =
      some ("label: " ++ "X" ++ ", Address: -1") := by
  have natural := addresses_natural_without_minus .standard
    (show ∀ line ∈ ["START 100", "L READ X", "ORIGIN L * 3", "M STOP"], ⟨"-"⟩ ∉ Token.scan line by
      decide +kernel)
  exact ⟨fun line member => (natural.1 line member).1,
    (natural.2.2 1 "X" .unresolved (by decide +kernel)).mpr rfl⟩

end FirstPass
