import FirstPass.Proofs.Lockstep
import FirstPass.Proofs.Storage

namespace FirstPass

/-!
Two runs at a distance.

The addresses of a program are counted from where it is started.  If one run is
started at a distance from another, then that distance is kept: by the counter,
by the places of records and by the values of symbols.  Nothing else differs.

This holds as long as an address enters the program only by a start.  So a
move or an equation must refer to a symbol and not to a number, and it may add
to the symbol or subtract from it, but not multiply or divide.  The range of
addresses does not move with the program; neither run may leave it.
-/

/-! ## Relocated reports -/

def Address.Relocated (distance : Int) (one other : Address) : Prop :=
  other.value = one.value + distance

inductive Symbol.Value.Relocated (distance : Int) : Symbol.Value → Symbol.Value → Prop
  | address {one other : Address} (moved : one.Relocated distance other) :
      Relocated distance (.address one) (.address other)
  | unresolved : Relocated distance .unresolved .unresolved
  | unplaced : Relocated distance .unplaced .unplaced

inductive LocationCounter.Relocated (distance : Int) : LocationCounter → LocationCounter → Prop
  | unstarted : Relocated distance .unstarted .unstarted
  | running {one other : Address} (moved : one.Relocated distance other) :
      Relocated distance (.running one) (.running other)
  | ended {one other : Option Address} (moved : Option.Rel (Address.Relocated distance) one other) :
      Relocated distance (.ended one) (.ended other)

/-- The names stand in the same order, and every address is moved. -/
structure SymbolTable.Relocated (distance : Int) (one other : SymbolTable) : Prop where
  order : other.order = one.order
  values : ∀ name, Option.Rel (Symbol.Value.Relocated distance) (one.find? name) (other.find? name)

/-- The record of a start, after which the record of its constant follows. -/
def Record.start : Record :=
  .instruction none .directive ⟨1⟩

/-- The records are the same, except that addresses and the constants of starts
are moved. -/
inductive Record.Relocated (distance : Int) : List Record → List Record → Prop
  | nil : Relocated distance [] []
  | same {record : Record} {one other : List Record} (unplaced : record.address? = none)
      (notStart : record ≠ .start) (rest : Relocated distance one other) :
      Relocated distance (record :: one) (record :: other)
  | placed {place moved : Address} {category : Category} {opcode : Opcode} {one other : List Record}
      (shifted : place.Relocated distance moved) (rest : Relocated distance one other) :
      Relocated distance (.instruction (some place) category opcode :: one)
        (.instruction (some moved) category opcode :: other)
  | started {digits : String} {one other : List Record} (rest : Relocated distance one other) :
      Relocated distance (.start :: .constant digits :: one)
        (.start :: .constant (Decimal.ofInt (Decimal.value digits.toList + distance)) :: other)

structure AssembledLine.Relocated (distance : Int) (one other : AssembledLine) : Prop where
  number : other.number = one.number
  records : Record.Relocated distance one.records other.records
  faults : other.faults = one.faults
  counter : one.counter.Relocated distance other.counter

structure Report.Relocated (distance : Int) (one other : Report) : Prop where
  lines : List.Forall₂ (AssembledLine.Relocated distance) one.lines other.lines
  symbols : one.symbols.Relocated distance other.symbols
  counter : one.counter.Relocated distance other.counter

theorem Record.Relocated.append {distance : Int} {one other later after : List Record}
    (first : Relocated distance one other) (second : Relocated distance later after) :
    Relocated distance (one ++ later) (other ++ after) := by
  induction first with
  | nil => exact second
  | same unplaced notStart _ ih => exact .same unplaced notStart ih
  | placed shifted _ ih => exact .placed shifted ih
  | started _ ih => exact .started ih

theorem Record.ofTerm_ne_start (symbols : SymbolTable) (term : Term) :
    ofTerm symbols term ≠ start := by
  cases term <;> exact Record.noConfusion

/-! ## Relocated states -/

variable {distance : Int}

theorem LocationCounter.Relocated.value {one other : LocationCounter}
    (relocated : Relocated distance one other) :
    Option.Rel (Address.Relocated distance) one.value other.value := by
  cases relocated with
  | unstarted => exact .none
  | running moved => exact .some moved
  | ended moved => exact moved

theorem Symbol.Value.relocated_ofPlace {one other : Option Address}
    (relocated : Option.Rel (Address.Relocated distance) one other) :
    Relocated distance (ofPlace one) (ofPlace other) := by
  cases relocated with
  | none => exact .unplaced
  | some moved => exact .address moved

/-- One state is the other at a distance. -/
abbrev State.Relocated (distance : Int) : State → State → Prop :=
  State.Follows id (Symbol.Value.Relocated distance) (LocationCounter.Relocated distance)

namespace SymbolTable.Follows

variable {one other : SymbolTable}
  (follows : Follows id (Symbol.Value.Relocated distance) one other)

include follows

theorem relocated : one.Relocated distance other :=
  ⟨follows.order.trans (List.map_id _), follows.values⟩

theorem ofReference_eq (name : String) :
    Record.ofReference other name = Record.ofReference one name := by
  unfold Record.ofReference
  rw [show other.index? name = one.index? name from follows.index? Function.injective_id name]

theorem ofTerm_eq (term : Term) : Record.ofTerm other term = Record.ofTerm one term := by
  cases term with
  | number numeral => rfl
  | symbol name => exact follows.ofReference_eq name

end SymbolTable.Follows

theorem State.Follows.mentionTerm {one other : State}
    (relocated : State.Relocated distance one other) (term : Term) :
    State.Relocated distance (one.mentionTerm term) (other.mentionTerm term) := by
  cases term with
  | number numeral => exact relocated
  | symbol name => exact relocated.mention Function.injective_id .unresolved name

/-- A run and the run of the relocated program, neither of which leaves the
range of addresses. -/
def Lockstep.relocated (distance : Int) : Lockstep where
  states := State.Relocated distance
  counters := LocationCounter.Relocated distance
  records := Record.Relocated distance
  fault := id
  admits fault := fault ≠ .addressOutOfRange
  counters_of_states relocated := relocated.counter
  records_nil := .nil
  records_append := Record.Relocated.append

/-! ## Relative expressions -/

/-- An expression that moves with its symbol. -/
structure Expression.Relative (expression : Expression) : Prop where
  symbolic : ∀ numeral, expression.term ≠ .number numeral
  additive : ∀ operator numeral, expression.arithmetic = some (operator, numeral) →
    operator = .add ∨ operator = .subtract

/-- Sums and differences move with their first operand. -/
theorem Operator.exact_add {operator : Operator} (additive : operator = .add ∨ operator = .subtract)
    (left right : Int) :
    operator.exact (left + distance) right = operator.exact left right + distance := by
  rcases additive with rfl | rfl
  · simp only [exact]
    omega
  · simp only [exact]
    omega

/-- Two integers at a distance are two addresses at that distance, unless one
of them is out of range. -/
theorem Address.relocated_ofInt? {one other : Int} (moved : other = one + distance) :
    (∃ place place', ofInt? one = some place ∧ ofInt? other = some place' ∧
      place.Relocated distance place') ∨
      ofInt? one = none ∨ ofInt? other = none := by
  cases first : ofInt? one with
  | none => exact Or.inr (Or.inl rfl)
  | some place =>
      cases second : ofInt? other with
      | none => exact Or.inr (Or.inr rfl)
      | some place' =>
          refine Or.inl ⟨place, place', rfl, rfl, ?_⟩
          rw [Address.Relocated, ofInt?_eq_some_iff.mp first, ofInt?_eq_some_iff.mp second]
          exact moved

theorem Operator.relocated_apply {operator : Operator}
    (additive : operator = .add ∨ operator = .subtract) {one other : Address}
    (moved : one.Relocated distance other) (right : Int) :
    (∃ place place', operator.apply one.value right = .ok place ∧
      operator.apply other.value right = .ok place' ∧ place.Relocated distance place') ∨
    operator.apply one.value right = .error .overflow ∨
      operator.apply other.value right = .error .overflow := by
  have noDivision : ¬ (operator = .divide ∧ right = 0) := by
    rcases additive with rfl | rfl <;> simp
  have results : operator.exact other.value right = operator.exact one.value right + distance := by
    rw [moved, Operator.exact_add additive]
  unfold apply
  rw [if_neg noDivision, if_neg noDivision]
  rcases Address.relocated_ofInt? results with
    ⟨place, place', first, second, shifted⟩ | first | second
  · rw [first, second]
    exact Or.inl ⟨place, place', rfl, rfl, shifted⟩
  · rw [first]
    exact Or.inr (Or.inl rfl)
  · rw [second]
    exact Or.inr (Or.inr rfl)

/-- A relative expression is moved, unless one of the two results is out of
range. -/
theorem Expression.Relative.evaluate {expression : Expression} (relative : expression.Relative)
    {one other : SymbolTable} (follows : one.Follows id (Symbol.Value.Relocated distance) other) :
    (∃ value moved, expression.evaluate one = .ok value ∧ expression.evaluate other = .ok moved ∧
      value.Relocated distance moved) ∨
    expression.evaluate one = .error .overflow ∨ expression.evaluate other = .error .overflow := by
  rcases expression with ⟨numeral | name, arithmetic⟩
  · exact absurd rfl (relative.symbolic numeral)
  · have values : ((Term.symbol name).value one).Relocated distance
        ((Term.symbol name).value other) :=
      getD_of_rel (follows.values name) .unresolved
    unfold Expression.evaluate
    simp only
    generalize (Term.symbol name).value one = value, (Term.symbol name).value other = moved
      at values
    cases values with
    | unresolved => exact Or.inl ⟨_, _, rfl, rfl, .unresolved⟩
    | unplaced => exact Or.inl ⟨_, _, rfl, rfl, .unplaced⟩
    | address shifted =>
        rcases arithmetic with _ | ⟨operator, numeral⟩
        · exact Or.inl ⟨_, _, rfl, rfl, .address shifted⟩
        · have additive := relative.additive operator numeral rfl
          rcases Operator.relocated_apply additive shifted numeral.value.value with
            ⟨place, place', first, second, result⟩ | first | second
          · simp only [first, second]
            exact Or.inl ⟨_, _, rfl, rfl, .address result⟩
          · simp only [first]
            exact Or.inr (Or.inl rfl)
          · simp only [second]
            exact Or.inr (Or.inr rfl)

/-! ## Carrying out relative statements -/

/-- The counter refuses some words in both runs for the same reason, or takes
them up at a distance, unless one of the runs leaves the range. -/
theorem LocationCounter.Relocated.occupy {one other : LocationCounter}
    (relocated : Relocated distance one other) (words : Int) :
    (∃ refusal, one.occupy words = .error refusal ∧ other.occupy words = .error refusal) ∨
    (∃ first next first' next', one.occupy words = .ok (first, .running next) ∧
      other.occupy words = .ok (first', .running next') ∧
      first.Relocated distance first' ∧ next.Relocated distance next') ∨
    one.occupy words = .error .overflow ∨ other.occupy words = .error .overflow := by
  cases relocated with
  | unstarted => exact Or.inl ⟨.unstarted, rfl, rfl⟩
  | ended moved => exact Or.inl ⟨.ended, rfl, rfl⟩
  | @running first first' moved =>
      have ends : first'.value + words = first.value + words + distance := by
        rw [moved]
        omega
      right
      unfold LocationCounter.occupy here Address.offset?
      simp only
      rcases Address.relocated_ofInt? ends with
        ⟨next, next', isNext, isNext', shifted⟩ | outside | outside
      · rw [isNext, isNext']
        exact Or.inl ⟨first, next, first', next', rfl, rfl, moved, shifted⟩
      · rw [outside]
        exact Or.inr (Or.inl rfl)
      · rw [outside]
        exact Or.inr (Or.inr rfl)

namespace Operation

variable {one other : State} {descriptor : Descriptor}

theorem relocated_executeFinish (relocated : State.Relocated distance one other)
    (notStart : .ofDescriptor none descriptor ≠ Record.start) (mnemonic : String) :
    (Lockstep.relocated distance).Effects (executeFinish mnemonic descriptor one)
      (executeFinish mnemonic descriptor other) := by
  refine ⟨⟨relocated.symbols, .ended relocated.counter.value⟩, .same rfl notStart .nil, ?_⟩
  rcases one with ⟨_, counter⟩
  rcases other with ⟨_, counter'⟩
  cases relocated.counter <;> rfl

theorem relocated_executeOrigin (relocated : State.Relocated distance one other)
    (notStart : .ofDescriptor none descriptor ≠ Record.start) (mnemonic : String)
    {target : Expression} (relative : target.Relative)
    (firstInRange : ∀ fault ∈ (executeOrigin mnemonic descriptor target one).faults,
      fault ≠ .addressOutOfRange)
    (secondInRange : ∀ fault ∈ (executeOrigin mnemonic descriptor target other).faults,
      fault ≠ .addressOutOfRange) :
    (Lockstep.relocated distance).Effects (executeOrigin mnemonic descriptor target one)
      (executeOrigin mnemonic descriptor target other) := by
  have records : Record.Relocated distance (executeOrigin mnemonic descriptor target one).records
      (executeOrigin mnemonic descriptor target other).records := by
    rw [records_executeOrigin, records_executeOrigin, relocated.symbols.ofTerm_eq]
    exact .same rfl notStart (.same (Record.address?_ofTerm _ _) (Record.ofTerm_ne_start _ _) .nil)
  suffices (Lockstep.relocated distance).states (executeOrigin mnemonic descriptor target one).state
        (executeOrigin mnemonic descriptor target other).state ∧
      (executeOrigin mnemonic descriptor target other).faults =
        (executeOrigin mnemonic descriptor target one).faults.map id from ⟨this.1, records, this.2⟩
  unfold executeOrigin at firstInRange secondInRange ⊢
  rcases one with ⟨symbols, counter⟩
  rcases other with ⟨symbols', counter'⟩
  cases relocated.counter with
  | unstarted => exact ⟨relocated, rfl⟩
  | ended moved => exact ⟨relocated, rfl⟩
  | running moved =>
      -- Only here can the two runs part: one result may be in range and the other not.
      simp only [LocationCounter.here, LocationCounter.moveTo] at firstInRange secondInRange ⊢
      rcases relative.evaluate relocated.symbols with
        ⟨value, value', first, second, values⟩ | outside | outside
      · simp only [first, second]
        cases values with
        | address shifted => exact ⟨⟨relocated.symbols, .running shifted⟩, rfl⟩
        | unresolved => exact ⟨relocated, rfl⟩
        | unplaced => exact ⟨relocated, rfl⟩
      · simp only [outside] at firstInRange
        exact absurd rfl (firstInRange _ List.mem_cons_self)
      · simp only [outside] at secondInRange
        exact absurd rfl (secondInRange _ List.mem_cons_self)

theorem relocated_executeEquate (relocated : State.Relocated distance one other)
    (notStart : .ofDescriptor none descriptor ≠ Record.start) (label : Option String)
    {meaning : Expression} (relative : meaning.Relative)
    (firstInRange : ∀ fault ∈ (executeEquate descriptor label meaning one).faults,
      fault ≠ .addressOutOfRange)
    (secondInRange : ∀ fault ∈ (executeEquate descriptor label meaning other).faults,
      fault ≠ .addressOutOfRange) :
    (Lockstep.relocated distance).Effects (executeEquate descriptor label meaning one)
      (executeEquate descriptor label meaning other) := by
  have mentioned := relocated.mentionTerm meaning.term
  have records : Record.Relocated distance (executeEquate descriptor label meaning one).records
      (executeEquate descriptor label meaning other).records := by
    rw [records_executeEquate, records_executeEquate, mentioned.symbols.ofTerm_eq]
    exact .same rfl notStart (.same (Record.address?_ofTerm _ _) (Record.ofTerm_ne_start _ _) .nil)
  cases label with
  | none => exact ⟨mentioned, records, rfl⟩
  | some name =>
      unfold executeEquate at firstInRange secondInRange
      rcases relative.evaluate mentioned.symbols with
        ⟨value, value', first, second, values⟩ | outside | outside
      · refine ⟨?_, records, ?_⟩
        · simp only [executeEquate, first, second]
          exact mentioned.bind Function.injective_id name values
        · simp only [executeEquate, first, second, List.map_nil]
      · simp only [outside] at firstInRange
        exact absurd rfl (firstInRange _ List.mem_cons_self)
      · simp only [outside] at secondInRange
        exact absurd rfl (secondInRange _ List.mem_cons_self)

theorem relocated_executeReserve (relocated : State.Relocated distance one other)
    (mnemonic : String) (count : Numeral)
    (firstInRange : ∀ fault ∈ (executeReserve mnemonic descriptor count one).faults,
      fault ≠ .addressOutOfRange)
    (secondInRange : ∀ fault ∈ (executeReserve mnemonic descriptor count other).faults,
      fault ≠ .addressOutOfRange) :
    (Lockstep.relocated distance).Effects (executeReserve mnemonic descriptor count one)
      (executeReserve mnemonic descriptor count other) := by
  have shown : Record.Relocated distance [.constant count.digits] [.constant count.digits] :=
    .same rfl (by intro isStart; cases isStart) .nil
  unfold executeReserve at firstInRange secondInRange ⊢
  rcases relocated.counter.occupy count.value.value with
    ⟨refusal, first, second⟩ | ⟨_, _, _, _, first, second, moved, ends⟩ | outside | outside
  · simp only [first, second]
    exact ⟨relocated, shown, rfl⟩
  · simp only [first, second]
    exact ⟨⟨relocated.symbols, .running ends⟩, .placed moved shown, rfl⟩
  · simp only [outside] at firstInRange
    exact absurd rfl (firstInRange _ List.mem_cons_self)
  · simp only [outside] at secondInRange
    exact absurd rfl (secondInRange _ List.mem_cons_self)

theorem relocated_executeWord (relocated : State.Relocated distance one other) (mnemonic : String)
    (firstInRange : ∀ fault ∈ (executeWord mnemonic descriptor one).faults,
      fault ≠ .addressOutOfRange)
    (secondInRange : ∀ fault ∈ (executeWord mnemonic descriptor other).faults,
      fault ≠ .addressOutOfRange) :
    (Lockstep.relocated distance).Effects (executeWord mnemonic descriptor one)
      (executeWord mnemonic descriptor other) := by
  unfold executeWord at firstInRange secondInRange ⊢
  rcases relocated.counter.occupy 1 with
    ⟨refusal, first, second⟩ | ⟨_, _, _, _, first, second, moved, ends⟩ | outside | outside
  · simp only [first, second]
    exact ⟨relocated, .nil, rfl⟩
  · simp only [first, second]
    exact ⟨⟨relocated.symbols, .running ends⟩, .placed moved .nil, rfl⟩
  · simp only [outside] at firstInRange
    exact absurd rfl (firstInRange _ List.mem_cons_self)
  · simp only [outside] at secondInRange
    exact absurd rfl (secondInRange _ List.mem_cons_self)

/-- An operation that moves with the program: no start, and with relative
expressions only. -/
def Relative : Operation → Prop
  | .start _ => False
  | .origin expression | .equate _ expression => expression.Relative
  | .finish | .reserve _ | .word | .malformed _ _ => True

end Operation

/-- A statement that moves with the program, and whose record is not taken for
that of a start. -/
def Statement.Relative : Statement → Prop
  | .instruction _ descriptor operation =>
      .ofDescriptor none descriptor ≠ Record.start ∧ operation.Relative
  | _ => True

/-- A relative statement does the same in both runs, at a distance. -/
theorem Statement.relocated_execute {statement : Statement} (relative : statement.Relative) :
    (Lockstep.relocated distance).Statements statement statement := by
  intro one other relocated firstInRange secondInRange
  cases statement with
  | instruction mnemonic descriptor operation =>
      rcases relative with ⟨notStart, relative⟩
      cases operation with
      | start address => cases relative
      | finish => exact Operation.relocated_executeFinish relocated notStart mnemonic
      | origin target =>
          exact Operation.relocated_executeOrigin relocated notStart mnemonic relative firstInRange
            secondInRange
      | equate label meaning =>
          exact Operation.relocated_executeEquate relocated notStart label relative firstInRange
            secondInRange
      | reserve count =>
          exact Operation.relocated_executeReserve relocated mnemonic count firstInRange
            secondInRange
      | word => exact Operation.relocated_executeWord relocated mnemonic firstInRange secondInRange
      | malformed operands fault => exact ⟨relocated, .same rfl notStart .nil, rfl⟩
  | label name =>
      refine ⟨?_, .same rfl (by intro isStart; cases isStart) .nil, rfl⟩
      exact relocated.bind Function.injective_id name
        (Symbol.Value.relocated_ofPlace relocated.counter.value)
  | reference name =>
      have mentioned := relocated.mentionTerm (.symbol name)
      have sameRecord := mentioned.symbols.ofReference_eq name
      refine ⟨mentioned, ?_, rfl⟩
      simp only [execute]
      rw [show (other.mention name).symbols = (other.mentionTerm (.symbol name)).symbols from rfl,
        sameRecord]
      exact .same rfl (by intro isStart; cases isStart) .nil
  | register word code => exact ⟨relocated, .same rfl (by intro isStart; cases isStart) .nil, rfl⟩
  | condition word code => exact ⟨relocated, .same rfl (by intro isStart; cases isStart) .nil, rfl⟩
  | constant digits => exact ⟨relocated, .same rfl (by intro isStart; cases isStart) .nil, rfl⟩

end FirstPass
