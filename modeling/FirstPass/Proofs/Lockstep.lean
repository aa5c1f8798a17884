import FirstPass.Proofs.Runs
import Mathlib.Logic.Function.Basic

namespace FirstPass

/-!
Two runs in step.

Two programs whose lines consist of corresponding statements are carried out
side by side.  If corresponding statements keep a relation between the two
states, and hand on records and faults that correspond as well, then so do the
two runs as wholes.  This is the induction behind every comparison of two
programs; what corresponds to what is left open here.

The tables of two such runs grow together.  Names may be spelled differently in
the second one, but one to one and in the same order, and values may differ in
a given way.
-/

/-! ## Tables in step -/

theorem isSome_of_rel {Value : Type} {related : Value → Value → Prop} {one other : Option Value}
    (rel : Option.Rel related one other) : other.isSome = one.isSome := by
  cases rel <;> rfl

theorem getD_of_rel {Value : Type} {related : Value → Value → Prop} {one other : Option Value}
    (rel : Option.Rel related one other) {default : Value} (fallback : related default default) :
    related (one.getD default) (other.getD default) := by
  cases rel with
  | none => exact fallback
  | some values => exact values

/-- One table follows another, with new names and with values that correspond. -/
structure SymbolTable.Follows (spell : String → String)
    (related : Symbol.Value → Symbol.Value → Prop) (one other : SymbolTable) : Prop where
  order : other.order = one.order.map spell
  values : ∀ name, Option.Rel related (one.find? name) (other.find? (spell name))

/-- One state follows another, in its table and in its counter. -/
structure State.Follows (spell : String → String) (related : Symbol.Value → Symbol.Value → Prop)
    (counters : LocationCounter → LocationCounter → Prop) (one other : State) : Prop where
  symbols : one.symbols.Follows spell related other.symbols
  counter : counters one.counter other.counter

section Follows

variable {spell : String → String} {related : Symbol.Value → Symbol.Value → Prop}
  {counters : LocationCounter → LocationCounter → Prop}

/-- A symbol has the same number in both tables. -/
theorem SymbolTable.Follows.index? {one other : SymbolTable}
    (follows : Follows spell related one other) (injective : Function.Injective spell)
    (name : String) : other.index? (spell name) = one.index? name := by
  have sameTest : (fun listed => spell listed == spell name) = fun listed => listed == name := by
    funext listed
    exact Bool.eq_iff_iff.mpr (by rw [beq_iff_eq, beq_iff_eq, injective.eq_iff])
  unfold SymbolTable.index? List.idxOf?
  rw [follows.order, List.findIdx?_map]
  exact congrArg (List.findIdx? · one.order) sameTest

/-- A name is appended in both tables or in neither. -/
theorem SymbolTable.Follows.order_admitted {one other : SymbolTable}
    (follows : Follows spell related one other) (name : String) :
    (if (other.find? (spell name)).isSome then other.order else other.order ++ [spell name]) =
      (if (one.find? name).isSome then one.order else one.order ++ [name]).map spell := by
  rw [isSome_of_rel (follows.values name), follows.order]
  split
  · rfl
  · rw [List.map_append, List.map_singleton]

theorem SymbolTable.Follows.insertIfNew {one other : SymbolTable}
    (follows : Follows spell related one other) (injective : Function.Injective spell)
    {value : Symbol.Value} (same : related value value) (name : String) :
    Follows spell related (one.insertIfNew name value).2
      (other.insertIfNew (spell name) value).2 where
  order := by
    rw [order_insertIfNew, order_insertIfNew]
    exact follows.order_admitted name
  values := by
    intro listed
    simp only [find?_insertIfNew, injective.eq_iff]
    split
    · exact .some (getD_of_rel (follows.values name) same)
    · exact follows.values listed

theorem SymbolTable.Follows.assign {one other : SymbolTable}
    (follows : Follows spell related one other) (injective : Function.Injective spell)
    (name : String) {value moved : Symbol.Value} (values : related value moved) :
    Follows spell related (one.assign name value).2 (other.assign (spell name) moved).2 where
  order := by
    rw [order_assign, order_assign]
    exact follows.order_admitted name
  values := by
    intro listed
    simp only [find?_assign, injective.eq_iff]
    split
    · exact .some values
    · exact follows.values listed

theorem State.Follows.mention {one other : State}
    (follows : Follows spell related counters one other) (injective : Function.Injective spell)
    (unresolved : related .unresolved .unresolved) (name : String) :
    Follows spell related counters (one.mention name) (other.mention (spell name)) :=
  ⟨follows.symbols.insertIfNew injective unresolved name, follows.counter⟩

theorem State.Follows.bind {one other : State} (follows : Follows spell related counters one other)
    (injective : Function.Injective spell) (name : String) {value moved : Symbol.Value}
    (values : related value moved) :
    Follows spell related counters (one.bind name value).1 (other.bind (spell name) moved).1 where
  symbols := by
    rw [symbols_bind, symbols_bind]
    exact follows.symbols.assign injective name values
  counter := by
    rw [counter_bind, counter_bind]
    exact follows.counter

end Follows

/-! ## Runs in step -/

/-- What corresponds in two runs. -/
structure Lockstep where
  states : State → State → Prop
  counters : LocationCounter → LocationCounter → Prop
  records : List Record → List Record → Prop
  /-- The fault of the second run for a fault of the first. -/
  fault : Fault → Fault
  /-- The faults under which the runs can still be compared. -/
  admits : Fault → Prop
  counters_of_states : ∀ {one other}, states one other → counters one.counter other.counter
  records_nil : records [] []
  records_append : ∀ {one other later after}, records one other → records later after →
    records (one ++ later) (other ++ after)

namespace Lockstep

/-- Two effects are the same, up to the correspondence. -/
structure Effects (lockstep : Lockstep) (one other : Effect) : Prop where
  states : lockstep.states one.state other.state
  records : lockstep.records one.records other.records
  faults : other.faults = one.faults.map lockstep.fault

/-- Two statements correspond: from corresponding states they do the same. -/
def Statements (lockstep : Lockstep) (one other : Statement) : Prop :=
  ∀ first second, lockstep.states first second →
    (∀ fault ∈ (one.execute first).faults, lockstep.admits fault) →
    (∀ fault ∈ (other.execute second).faults, lockstep.admits fault) →
    lockstep.Effects (one.execute first) (other.execute second)

/-- Two source lines correspond, statement by statement. -/
def Sources (lockstep : Lockstep) (set : InstructionSet) (one other : String) : Prop :=
  List.Forall₂ lockstep.Statements (Statement.ofLine set one) (Statement.ofLine set other)

/-- Two lines of a report correspond. -/
structure Lines (lockstep : Lockstep) (one other : AssembledLine) : Prop where
  number : other.number = one.number
  records : lockstep.records one.records other.records
  faults : other.faults = one.faults.map lockstep.fault
  counters : lockstep.counters one.counter other.counter

theorem executeAll (lockstep : Lockstep) {one other : List Statement}
    (correspond : List.Forall₂ lockstep.Statements one other) {first second : State}
    (related : lockstep.states first second)
    (firstAdmitted : ∀ fault ∈ (Statement.executeAll first one).faults, lockstep.admits fault)
    (secondAdmitted : ∀ fault ∈ (Statement.executeAll second other).faults, lockstep.admits fault) :
    lockstep.Effects (Statement.executeAll first one) (Statement.executeAll second other) := by
  induction correspond generalizing first second with
  | nil => exact ⟨related, lockstep.records_nil, rfl⟩
  | cons here _ ih =>
      simp only [Statement.executeAll, List.forall_mem_append] at firstAdmitted secondAdmitted
      have now := here first second related firstAdmitted.1 secondAdmitted.1
      have later := ih now.states firstAdmitted.2 secondAdmitted.2
      refine ⟨later.states, lockstep.records_append now.records later.records, ?_⟩
      simp only [Statement.executeAll]
      rw [now.faults, later.faults, List.map_append]

theorem oneStep (lockstep : Lockstep) {set : InstructionSet} {one other : String}
    (correspond : lockstep.Sources set one other) {first second : State}
    (related : lockstep.states first second) (number : Nat)
    (firstAdmitted : ∀ fault ∈ (first.step set number one).line.faults, lockstep.admits fault)
    (secondAdmitted : ∀ fault ∈ (second.step set number other).line.faults, lockstep.admits fault) :
    lockstep.Lines (first.step set number one).line (second.step set number other).line ∧
      lockstep.states (first.step set number one).state (second.step set number other).state := by
  have line := lockstep.executeAll correspond related firstAdmitted secondAdmitted
  exact ⟨⟨rfl, line.records, line.faults, lockstep.counters_of_states line.states⟩, line.states⟩

/-- The lines of two runs correspond, and so do the states at their ends. -/
theorem steps (lockstep : Lockstep) {set : InstructionSet} {one other : List String}
    (correspond : List.Forall₂ (lockstep.Sources set) one other)
    {first second : State} (related : lockstep.states first second) (number : Nat)
    (firstAdmitted : ∀ taken ∈ first.steps set number one,
      ∀ fault ∈ taken.line.faults, lockstep.admits fault)
    (secondAdmitted : ∀ taken ∈ second.steps set number other,
      ∀ fault ∈ taken.line.faults, lockstep.admits fault) :
    List.Forall₂ lockstep.Lines ((first.steps set number one).map Step.line)
        ((second.steps set number other).map Step.line) ∧
      lockstep.states (State.run set first one) (State.run set second other) := by
  induction correspond generalizing first second number with
  | nil => exact ⟨.nil, related⟩
  | cons here _ ih =>
      simp only [State.steps, List.forall_mem_cons] at firstAdmitted secondAdmitted
      rcases lockstep.oneStep here related number firstAdmitted.1 secondAdmitted.1 with ⟨line, next⟩
      rcases ih next (number + 1) firstAdmitted.2 secondAdmitted.2 with ⟨lines, last⟩
      exact ⟨.cons line lines, last⟩

/-- Two programs of corresponding lines have corresponding reports. -/
theorem reports (lockstep : Lockstep) {set : InstructionSet} {one other : List String}
    (initial : lockstep.states {} {}) (correspond : List.Forall₂ (lockstep.Sources set) one other)
    (firstAdmitted : ∀ line ∈ (assemble set one).lines, ∀ fault ∈ line.faults,
      lockstep.admits fault)
    (secondAdmitted : ∀ line ∈ (assemble set other).lines, ∀ fault ∈ line.faults,
      lockstep.admits fault) :
    List.Forall₂ lockstep.Lines (assemble set one).lines (assemble set other).lines ∧
      lockstep.states (State.reached set one) (State.reached set other) :=
  lockstep.steps correspond initial 1 (List.forall_mem_map.mp firstAdmitted)
    (List.forall_mem_map.mp secondAdmitted)

end Lockstep
end FirstPass
