import FirstPass.Proofs.Effects
import FirstPass.Proofs.Evaluation

namespace FirstPass

/-!
Where a move takes the location counter.

A move has seven outcomes, and in all but one of them it reports a fault and
leaves the counter alone.  The counter is looked at first, so nothing about the
target matters unless the counter is running.  Then comes the term, and only a
term with an address is calculated with.
-/

namespace Operation

/-- What becomes of a move: the faults that it reports, at most one, and the counter
after it. -/
inductive Moves (mnemonic : String) (target : Expression) (before : State) :
    List Fault → LocationCounter → Prop
  | unstarted (unstarted : before.counter = .unstarted) :
      Moves mnemonic target before [.counterUnstarted mnemonic] before.counter
  | ended {last : Option Address} (ended : before.counter = .ended last) :
      Moves mnemonic target before [.afterEnd mnemonic] before.counter
  | unresolved {here : Address} {name : String} (running : before.counter = .running here)
      (isSymbol : target.term = .symbol name)
      (missing : before.symbols.find? name = none ∨ before.symbols.find? name = some .unresolved) :
      Moves mnemonic target before [.unresolvedSymbol name] before.counter
  | unplaced {here : Address} {name : String} (running : before.counter = .running here)
      (isSymbol : target.term = .symbol name) (found : before.symbols.find? name = some .unplaced) :
      Moves mnemonic target before [.unplacedSymbol name] before.counter
  | arrives {here place destination : Address} (running : before.counter = .running here)
      (placed : target.term.PlacedAt before.symbols place)
      (amounts : target.Amounts place destination.value) :
      Moves mnemonic target before [] (.running destination)
  | divisionByZero {here place : Address} {numeral : Numeral}
      (running : before.counter = .running here)
      (placed : target.term.PlacedAt before.symbols place)
      (divides : target.arithmetic = some (.divide, numeral)) (zero : numeral.value.value = 0) :
      Moves mnemonic target before [.divisionByZero] before.counter
  | outOfRange {here place : Address} {number : Int} (running : before.counter = .running here)
      (placed : target.term.PlacedAt before.symbols place) (amounts : target.Amounts place number)
      (outOfRange : ¬ Address.Fits number) :
      Moves mnemonic target before [.addressOutOfRange] before.counter

variable {mnemonic : String} {target : Expression} {state : State}

/-- Every move has an outcome. -/
theorem exists_moves (mnemonic : String) (target : Expression) (state : State) :
    ∃ faults counter, Moves mnemonic target state faults counter := by
  cases phase : state.counter with
  | unstarted => exact ⟨_, _, .unstarted phase⟩
  | ended last => exact ⟨_, _, .ended phase⟩
  | running here =>
      rcases Expression.exists_evaluates state.symbols target with ⟨outcome, evaluates⟩
      cases evaluates with
      | unresolved missing => exact ⟨_, _, .unresolved phase rfl missing⟩
      | unplaced found => exact ⟨_, _, .unplaced phase rfl found⟩
      | address placed amounts => exact ⟨_, _, .arrives phase placed amounts⟩
      | divisionByZero placed zero => exact ⟨_, _, .divisionByZero phase placed rfl zero⟩
      | overflow placed amounts outOfRange =>
          exact ⟨_, _, .outOfRange phase placed amounts outOfRange⟩

/-- A move does what its outcome says. -/
theorem Moves.executeOrigin_eq {faults : List Fault} {counter : LocationCounter}
    (moves : Moves mnemonic target state faults counter) (descriptor : Descriptor) :
    (executeOrigin mnemonic descriptor target state).faults = faults ∧
      (executeOrigin mnemonic descriptor target state).state.counter = counter := by
  rcases target with ⟨term, arithmetic⟩
  cases moves with
  | unstarted unstarted =>
      simp only [executeOrigin, unstarted, LocationCounter.here, Fault.ofRefusal, and_self]
  | ended ended => simp only [executeOrigin, ended, LocationCounter.here, Fault.ofRefusal, and_self]
  | unresolved running isSymbol missing =>
      cases isSymbol
      have evaluated :=
        Expression.Evaluates.evaluate_eq (@Expression.Evaluates.unresolved _ _ arithmetic missing)
      simp only [executeOrigin, running, LocationCounter.here, evaluated, Term.text, and_self]
  | unplaced running isSymbol found =>
      cases isSymbol
      have evaluated :=
        Expression.Evaluates.evaluate_eq (@Expression.Evaluates.unplaced _ _ arithmetic found)
      simp only [executeOrigin, running, LocationCounter.here, evaluated, Term.text, and_self]
  | arrives running placed amounts =>
      have evaluated := Expression.Evaluates.evaluate_eq (.address placed amounts)
      simp only [executeOrigin, running, LocationCounter.here, evaluated, LocationCounter.moveTo,
        and_self]
  | divisionByZero running placed divides zero =>
      cases divides
      have evaluated := Expression.Evaluates.evaluate_eq (.divisionByZero placed zero)
      simp only [executeOrigin, running, LocationCounter.here, evaluated, Fault.ofArithmetic,
        and_self]
  | outOfRange running placed amounts outOfRange =>
      have evaluated := Expression.Evaluates.evaluate_eq (.overflow placed amounts outOfRange)
      simp only [executeOrigin, running, LocationCounter.here, evaluated, Fault.ofArithmetic,
        and_self]

theorem moves_iff (descriptor : Descriptor) {faults : List Fault} {counter : LocationCounter} :
    Moves mnemonic target state faults counter ↔
      (executeOrigin mnemonic descriptor target state).faults = faults ∧
        (executeOrigin mnemonic descriptor target state).state.counter = counter := by
  constructor
  · intro moves
    exact moves.executeOrigin_eq descriptor
  · rintro ⟨areFaults, isCounter⟩
    rcases exists_moves mnemonic target state with ⟨_, _, moves⟩
    rw [← areFaults, ← isCounter, (moves.executeOrigin_eq descriptor).1,
      (moves.executeOrigin_eq descriptor).2]
    exact moves

theorem state_executeOrigin_of_fault {descriptor : Descriptor}
    (failed : (executeOrigin mnemonic descriptor target state).faults ≠ []) :
    (executeOrigin mnemonic descriptor target state).state = state := by
  rcases executeOrigin_cases mnemonic descriptor target state with ⟨_, _, _, _, done⟩ | ⟨_, refused⟩
  · rw [done] at failed
    exact absurd rfl failed
  · rw [refused]

end Operation

/-- A counter that has a next word can be moved anywhere. -/
theorem LocationCounter.moveTo_of_here {counter : LocationCounter} {here : Address}
    (running : counter.here = .ok here) (place : Address) :
    counter.moveTo place = .ok (.running place) := by
  rw [moveTo, running]

/-- A move in any state, with any tokens that an expression is read from.  It
shows its own record, without an address, and that of its term, and touches no
symbol.  Its faults and the counter after it are those of exactly one outcome.
With a fault, the state stays as it was.  Once the counter has been found to be
running, it does not refuse to move. -/
theorem move_outcome (set : InstructionSet) (token : Token) {descriptor : Descriptor}
    (known : set.instruction? token.text = some descriptor) (isMove : descriptor.role = .origin)
    (label : Option String) {rest : List Token} {target : Expression}
    (parsed : (Expression.read token.text rest).outcome = .ok target) (state : State) :
    let effect := (Statement.read set label token rest).execute state
    effect.records = [.ofDescriptor none descriptor, .ofTerm state.symbols target.term] ∧
    effect.state.symbols = state.symbols ∧
    (∀ faults counter, Operation.Moves token.text target state faults counter ↔
      effect.faults = faults ∧ effect.state.counter = counter) ∧
    (effect.faults ≠ [] → effect.state = state) ∧
    ∀ here place, state.counter.here = .ok here →
      state.counter.moveTo place = .ok (.running place) := by
  intro effect
  have isEffect : effect = Operation.executeOrigin token.text descriptor target state := by
    change (Statement.read set label token rest).execute state = _
    rw [Statement.read_of_instruction? known, isMove]
    simp only [Operation.read, Operation.readExpression, parsed]
    rfl
  rw [isEffect]
  refine ⟨?_, ?_, ?_, ?_, ?_⟩
  · exact Operation.records_executeOrigin token.text descriptor target state
  · exact Operation.symbols_executeOrigin token.text descriptor target state
  · intro faults counter
    exact Operation.moves_iff descriptor
  · exact Operation.state_executeOrigin_of_fault
  · intro here place running
    exact LocationCounter.moveTo_of_here running place

/-- The symbol was only used, so that is what is reported, and not the division
by zero.  A number needs no symbol: two words below zero is an address. -/
theorem move_outcome_unresolved :
    let state : State := ⟨⟨["L"], ⟨[("L", .unresolved)]⟩⟩, .running ⟨101, by decide⟩⟩
    let refused := (Statement.read .standard none ⟨"ORIGIN"⟩ [⟨"L"⟩, ⟨"/"⟩, ⟨"0"⟩]).execute state
    let done := (Statement.read .standard none ⟨"ORIGIN"⟩ [⟨"7"⟩, ⟨"-"⟩, ⟨"9"⟩]).execute state
    refused.records = [.instruction none .directive ⟨3⟩, .reference "L" 1] ∧
    refused.faults = [.unresolvedSymbol "L"] ∧ refused.state = state ∧
    done.faults = [] ∧ done.state.counter = .running ⟨-2, by decide⟩ := by
  intro state refused done
  have known : InstructionSet.standard.instruction? "ORIGIN" = some ⟨⟨3⟩, .directive, .origin⟩ := by
    decide +kernel
  have divided : (Expression.read "ORIGIN" [⟨"L"⟩, ⟨"/"⟩, ⟨"0"⟩]).outcome =
      .ok ⟨.symbol "L", some (.divide, ⟨"0", ⟨0, by decide⟩⟩)⟩ := by decide
  have subtracted : (Expression.read "ORIGIN" [⟨"7"⟩, ⟨"-"⟩, ⟨"9"⟩]).outcome =
      .ok ⟨.number ⟨"7", ⟨7, by decide⟩⟩, some (.subtract, ⟨"9", ⟨9, by decide⟩⟩)⟩ := by decide
  rcases move_outcome .standard ⟨"ORIGIN"⟩ known rfl none divided state with
    ⟨shown, _, outcomes, kept, _⟩
  rcases move_outcome .standard ⟨"ORIGIN"⟩ known rfl none subtracted state with
    ⟨_, _, arrivals, _, _⟩
  have missing := (outcomes _ _).mp (.unresolved rfl rfl (Or.inr (by decide)))
  have arrived := (arrivals _ _).mp
    (@Operation.Moves.arrives _ _ _ _ _ ⟨-2, by decide⟩ rfl (.number _)
      (.calculation _ (by decide)))
  exact ⟨shown.trans (by decide), missing.1, kept (by rw [missing.1]; decide), arrived.1, arrived.2⟩

end FirstPass
