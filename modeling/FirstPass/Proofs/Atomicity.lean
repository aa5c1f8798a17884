import FirstPass.Assembly
import FirstPass.Proofs.Effects

namespace FirstPass

/-!
Mnemonics act as a whole or report a fault.

A mnemonic reports one fault at the most.  A mnemonic with a fault leaves the
location counter alone, except that an end always ends it.  The symbol table
is touched by equations only.  A mnemonic without a fault has done all that
its role asks for.  So a fault never goes with half of an effect, and a
missing effect never without a fault.
-/

/-- A token spells an address in digits. -/
def Token.Spells (token : Token) (address : Address) : Prop :=
  token.isNumber = true ∧ address.value = Decimal.value token.text.toList

theorem Numeral.spells_of_read {mnemonic : String} {token : Token} {numeral : Numeral}
    (success : Numeral.read mnemonic token = .ok numeral) : token.Spells numeral.value := by
  refine ⟨?_, ?_⟩
  · by_contra notNumber
    have unspelled : Numeral.ofToken? token = none := dif_neg notNumber
    simp only [Numeral.read, unspelled] at success
    cases success
  · rw [Numeral.value_of_read success, ← Numeral.token_of_read success]
    rfl

/-- What a mnemonic has done that reports no fault, by its role.  The operands
are looked for among the tokens after it, and an equation defines the label
before it. -/
inductive Accomplished (mnemonic : String) (descriptor : Descriptor) (label : Option String)
    (rest : List Token) (before : State) (effect : Effect) : Role → Prop
  | start {operand : Token} {later : List Token} {address : Address}
      (operands : rest = operand :: later)
      (spelled : operand.Spells address) (counter : effect.state.counter = .running address) :
      Accomplished mnemonic descriptor label rest before effect .start
  | finish {address : Address} (running : before.counter = .running address)
      (counter : effect.state.counter = .ended (some address)) :
      Accomplished mnemonic descriptor label rest before effect .finish
  | origin {first address : Address} {target : Expression}
      (running : before.counter = .running first)
      (operands : (Expression.read mnemonic rest).outcome = .ok target)
      (evaluated : target.evaluate before.symbols = .ok (.address address))
      (counter : effect.state.counter = .running address) :
      Accomplished mnemonic descriptor label rest before effect .origin
  | equate {name : String} {meaning : Expression} {value : Symbol.Value}
      (isLabel : label = some name)
      (operands : (Expression.read mnemonic rest).outcome = .ok meaning)
      (evaluated : meaning.evaluate before.symbols = .ok value)
      (bound : effect.state.symbols.find? name = some value)
      (counter : effect.state.counter = before.counter) :
      Accomplished mnemonic descriptor label rest before effect .equate
  | reserve {operand : Token} {later : List Token} {count first next : Address}
      (operands : rest = operand :: later) (spelled : operand.Spells count)
      (running : before.counter = .running first) (moved : next.value = first.value + count.value)
      (records : effect.records = [.ofDescriptor (some first) descriptor, .constant operand.text])
      (counter : effect.state.counter = .running next) :
      Accomplished mnemonic descriptor label rest before effect .reserve
  | plain {first next : Address} (running : before.counter = .running first)
      (moved : next.value = first.value + 1)
      (records : effect.records = [.ofDescriptor (some first) descriptor])
      (counter : effect.state.counter = .running next) :
      Accomplished mnemonic descriptor label rest before effect .plain

namespace Operation

/-- No operation goes on after its first fault. -/
theorem faults_execute_cases (mnemonic : String) (descriptor : Descriptor) (operation : Operation)
    (state : State) :
    (operation.execute mnemonic descriptor state).faults = [] ∨
      ∃ fault, (operation.execute mnemonic descriptor state).faults = [fault] := by
  cases operation with
  | start address =>
      rcases executeStart_cases mnemonic descriptor address state with ⟨_, done⟩ | ⟨fault, refused⟩
      · exact Or.inl (congrArg Effect.faults done)
      · exact Or.inr ⟨fault, congrArg Effect.faults refused⟩
  | finish =>
      rcases (executeFinish_cases mnemonic descriptor state).2 with ⟨_, _, quiet⟩ | reported
      · exact Or.inl quiet
      · exact Or.inr reported
  | origin target =>
      rcases executeOrigin_cases mnemonic descriptor target state with
        ⟨_, _, _, _, done⟩ | ⟨fault, refused⟩
      · exact Or.inl (congrArg Effect.faults done)
      · exact Or.inr ⟨fault, congrArg Effect.faults refused⟩
  | equate label meaning =>
      cases label with
      | none => exact Or.inr ⟨.missingLabel, rfl⟩
      | some name =>
          rcases executeEquate_labelled descriptor name meaning state with
            ⟨_, _, quiet, _⟩ | ⟨_, _, reported, _⟩
          · exact Or.inl quiet
          · exact Or.inr ⟨_, reported⟩
  | reserve count =>
      rcases executeReserve_cases mnemonic descriptor count state with
        ⟨_, _, _, _, done⟩ | ⟨fault, refused⟩
      · exact Or.inl (congrArg Effect.faults done)
      · exact Or.inr ⟨fault, congrArg Effect.faults refused⟩
  | word =>
      rcases executeWord_cases mnemonic descriptor state with ⟨_, _, _, _, done⟩ | ⟨fault, refused⟩
      · exact Or.inl (congrArg Effect.faults done)
      · exact Or.inr ⟨fault, congrArg Effect.faults refused⟩
  | malformed operands fault => exact Or.inr ⟨fault, rfl⟩

/-- A fault leaves the counter alone, except for that of an end. -/
theorem counter_execute_of_fault {mnemonic : String} {descriptor : Descriptor}
    {operation : Operation} (notFinish : operation ≠ .finish) {state : State}
    (failed : (operation.execute mnemonic descriptor state).faults ≠ []) :
    (operation.execute mnemonic descriptor state).state.counter = state.counter := by
  rcases operation.counter_execute_cases mnemonic descriptor state with
    same | ⟨_, _, quiet, _⟩ | ⟨isFinish, _⟩
  · exact same
  · exact absurd quiet failed
  · exact absurd isFinish notFinish

/-! ## Operands without a fault -/

theorem readNumeral_of_no_fault {mnemonic expected : String} {operation : Numeral → Operation}
    {rest : List Token} {descriptor : Descriptor} {state : State}
    (quiet : ((readNumeral mnemonic expected operation rest).execute mnemonic descriptor
      state).faults = []) :
    ∃ operand later numeral, rest = operand :: later ∧ Numeral.read mnemonic operand = .ok numeral ∧
      readNumeral mnemonic expected operation rest = operation numeral := by
  rcases readNumeral_cases mnemonic expected operation rest with success | ⟨_, _, malformed⟩
  · exact success
  · rw [malformed] at quiet
    cases quiet

theorem readExpression_of_no_fault {mnemonic : String} {operation : Expression → Operation}
    {rest : List Token} {descriptor : Descriptor} {state : State}
    (quiet : ((readExpression mnemonic operation rest).execute mnemonic descriptor
      state).faults = []) :
    ∃ expression, (Expression.read mnemonic rest).outcome = .ok expression ∧
      readExpression mnemonic operation rest = operation expression := by
  rcases readExpression_cases mnemonic operation rest with success | ⟨_, _, malformed⟩
  · exact success
  · rw [malformed] at quiet
    cases quiet

/-! ## One role after the other -/

theorem accomplished_start {mnemonic : String} {descriptor : Descriptor} {label : Option String}
    {rest : List Token} {state : State}
    (quiet : ((read mnemonic .start label rest).execute mnemonic descriptor state).faults = []) :
    Accomplished mnemonic descriptor label rest state
      ((read mnemonic .start label rest).execute mnemonic descriptor state) .start := by
  rw [read] at quiet ⊢
  rcases readNumeral_of_no_fault quiet with ⟨operand, later, numeral, operands, success, whole⟩
  rw [whole, execute] at quiet ⊢
  rcases executeStart_cases mnemonic descriptor numeral state with ⟨_, done⟩ | ⟨_, refused⟩
  · rw [done]
    exact .start operands (Numeral.spells_of_read success) rfl
  · rw [refused] at quiet
    cases quiet

theorem accomplished_finish {mnemonic : String} {descriptor : Descriptor} {label : Option String}
    {rest : List Token} {state : State}
    (quiet : ((read mnemonic .finish label rest).execute mnemonic descriptor state).faults = []) :
    Accomplished mnemonic descriptor label rest state
      ((read mnemonic .finish label rest).execute mnemonic descriptor state) .finish := by
  rw [read, execute] at quiet ⊢
  rcases executeFinish_cases mnemonic descriptor state with
    ⟨ended, ⟨address, running, _⟩ | ⟨_, reported⟩⟩
  · refine .finish running ?_
    rw [ended, running]
    rfl
  · cases reported.symm.trans quiet

theorem accomplished_origin {mnemonic : String} {descriptor : Descriptor} {label : Option String}
    {rest : List Token} {state : State}
    (quiet : ((read mnemonic .origin label rest).execute mnemonic descriptor state).faults = []) :
    Accomplished mnemonic descriptor label rest state
      ((read mnemonic .origin label rest).execute mnemonic descriptor state) .origin := by
  rw [read] at quiet ⊢
  rcases readExpression_of_no_fault quiet with ⟨target, operands, whole⟩
  rw [whole, execute] at quiet ⊢
  rcases executeOrigin_cases mnemonic descriptor target state with
    ⟨first, place, running, evaluated, done⟩ | ⟨_, refused⟩
  · rw [done]
    exact .origin running operands evaluated rfl
  · rw [refused] at quiet
    cases quiet

theorem accomplished_equate {mnemonic : String} {descriptor : Descriptor} {label : Option String}
    {rest : List Token} {state : State}
    (quiet : ((read mnemonic .equate label rest).execute mnemonic descriptor state).faults = []) :
    Accomplished mnemonic descriptor label rest state
      ((read mnemonic .equate label rest).execute mnemonic descriptor state) .equate := by
  rw [read] at quiet ⊢
  rcases readExpression_of_no_fault quiet with ⟨meaning, operands, whole⟩
  rw [whole, execute] at quiet ⊢
  cases label with
  | none => cases quiet
  | some name =>
      rcases executeEquate_labelled descriptor name meaning state with
        ⟨value, evaluated, _, bound⟩ | ⟨_, _, reported, _⟩
      · refine .equate rfl operands evaluated ?_ (counter_executeEquate descriptor _ meaning state)
        rw [bound, State.symbols_bind, SymbolTable.find?_assign, if_pos rfl]
      · cases reported.symm.trans quiet

theorem accomplished_reserve {mnemonic : String} {descriptor : Descriptor} {label : Option String}
    {rest : List Token} {state : State}
    (quiet : ((read mnemonic .reserve label rest).execute mnemonic descriptor state).faults = []) :
    Accomplished mnemonic descriptor label rest state
      ((read mnemonic .reserve label rest).execute mnemonic descriptor state) .reserve := by
  rw [read] at quiet ⊢
  rcases readNumeral_of_no_fault quiet with ⟨operand, later, numeral, operands, success, whole⟩
  rw [whole, execute] at quiet ⊢
  have shown : numeral.digits = operand.text := congrArg Token.text (Numeral.token_of_read success)
  rcases executeReserve_cases mnemonic descriptor numeral state with
    ⟨first, next, running, moved, done⟩ | ⟨_, refused⟩
  · rw [done, shown]
    exact .reserve operands (Numeral.spells_of_read success) running moved rfl rfl
  · rw [refused] at quiet
    cases quiet

theorem accomplished_plain {mnemonic : String} {descriptor : Descriptor} {label : Option String}
    {rest : List Token} {state : State}
    (quiet : ((read mnemonic .plain label rest).execute mnemonic descriptor state).faults = []) :
    Accomplished mnemonic descriptor label rest state
      ((read mnemonic .plain label rest).execute mnemonic descriptor state) .plain := by
  rw [read, execute] at quiet ⊢
  rcases executeWord_cases mnemonic descriptor state with
    ⟨first, next, running, moved, done⟩ | ⟨_, refused⟩
  · rw [done]
    exact .plain running moved rfl rfl
  · rw [refused] at quiet
    cases quiet

theorem accomplished_of_no_fault {mnemonic : String} {descriptor : Descriptor} {role : Role}
    {label : Option String} {rest : List Token} {state : State}
    (quiet : ((read mnemonic role label rest).execute mnemonic descriptor state).faults = []) :
    Accomplished mnemonic descriptor label rest state
      ((read mnemonic role label rest).execute mnemonic descriptor state) role := by
  cases role with
  | start => exact accomplished_start quiet
  | finish => exact accomplished_finish quiet
  | origin => exact accomplished_origin quiet
  | equate => exact accomplished_equate quiet
  | reserve => exact accomplished_reserve quiet
  | plain => exact accomplished_plain quiet

end Operation

/-- One mnemonic, with any tokens after it and in any state.  It reports at most
one fault, and its faults come before those of the statements after it on its
line.  With a fault, and unless it is an end, it leaves the counter as it was;
unless it is an equation, it leaves the symbols as they were, fault or not.
Without a fault it has done what its role asks for. -/
theorem mnemonic_atomic (set : InstructionSet) (token : Token) {descriptor : Descriptor}
    (known : set.instruction? token.text = some descriptor) (label : Option String)
    (rest : List Token) (state : State) :
    let statement := Statement.read set label token rest
    let effect := statement.execute state
    effect.faults.length ≤ 1 ∧
    (∀ following, (Statement.executeAll state (statement :: following)).faults =
      effect.faults ++ (Statement.executeAll effect.state following).faults) ∧
    (effect.faults ≠ [] → descriptor.role ≠ .finish → effect.state.counter = state.counter) ∧
    (descriptor.role ≠ .equate → effect.state.symbols = state.symbols) ∧
    (effect.faults = [] →
      Accomplished token.text descriptor label rest state effect descriptor.role) := by
  intro statement effect
  have isStatement : statement = .instruction token.text descriptor
      (Operation.read token.text descriptor.role label rest) :=
    Statement.read_of_instruction? known label rest
  have isEffect : effect = (Operation.read token.text descriptor.role label rest).execute
      token.text descriptor state := by
    change statement.execute state = _
    rw [isStatement, Statement.execute]
  refine ⟨?_, fun following => rfl, ?_, ?_, ?_⟩
  · rw [isEffect]
    rcases Operation.faults_execute_cases token.text descriptor
      (Operation.read token.text descriptor.role label rest) state with quiet | ⟨fault, reported⟩
    · rw [quiet]
      exact Nat.zero_le 1
    · rw [reported]
      exact Nat.le_refl 1
  · intro failed notFinish
    rw [isEffect] at failed ⊢
    refine Operation.counter_execute_of_fault ?_ failed
    intro isFinish
    apply notFinish
    exact Operation.role_eq_of_role?_read (by rw [isFinish, Operation.role?])
  · intro notEquate
    rw [isEffect]
    apply Operation.symbols_execute
    intro isEquate
    exact notEquate (Operation.role_eq_of_role?_read isEquate)
  · intro quiet
    rw [isEffect] at quiet ⊢
    exact Operation.accomplished_of_no_fault quiet

/-- Seven words short of the greatest address, eight words are refused and
seven are reserved. -/
theorem mnemonic_atomic_near_limit :
    let state : State := { counter := .running ⟨9223372036854775800, by decide⟩ }
    let refused := (Statement.read .standard none ⟨"DS"⟩ [⟨"8"⟩]).execute state
    let done := (Statement.read .standard none ⟨"DS"⟩ [⟨"7"⟩]).execute state
    refused.faults = [.addressOutOfRange] ∧ refused.state.counter = state.counter ∧
    done.faults = [] ∧
      Accomplished "DS" ⟨⟨2⟩, .declarative, .reserve⟩ none [⟨"7"⟩] state done .reserve := by
  intro state refused done
  have known : InstructionSet.standard.instruction? "DS" = some ⟨⟨2⟩, .declarative, .reserve⟩ := by
    decide +kernel
  have failed : refused.faults = [.addressOutOfRange] := by decide +kernel
  have quiet : done.faults = [] := by decide +kernel
  refine ⟨failed, ?_, quiet, ?_⟩
  · refine (mnemonic_atomic .standard ⟨"DS"⟩ known none [⟨"8"⟩] state).2.2.1 ?_ (by decide)
    intro missing
    cases failed.symm.trans missing
  · exact (mnemonic_atomic .standard ⟨"DS"⟩ known none [⟨"7"⟩] state).2.2.2.2 quiet

end FirstPass
