import FirstPass.Proofs.Lockstep
import FirstPass.Proofs.Renaming
import Mathlib.Logic.Equiv.Basic

namespace FirstPass

/-!
Runs of renamed programs.

The report of a renamed program is the renamed report, faults included.  The
values of a table are kept in alphabetical order, which a renaming does not
preserve.  The two runs are therefore compared by what they find in their
tables, and only the last two tables are shown to be equal as a whole.
-/

/-! ## Carrying out renamed statements -/

/-- One state is the other under new names. -/
abbrev State.Renamed (spell : String → String) : State → State → Prop :=
  State.Follows spell Eq fun one other => other = one

namespace SymbolTable.Follows

variable {spell : String → String} {one other : SymbolTable}

theorem find?_eq (renamed : Follows spell Eq one other) (name : String) :
    other.find? (spell name) = one.find? name := by
  have rel := renamed.values name
  generalize one.find? name = before, other.find? (spell name) = after at rel
  cases rel with
  | none => rfl
  | some same => rw [same]

theorem evaluate_rename (renamed : Follows spell Eq one other) (expression : Expression) :
    (expression.rename spell).evaluate other = expression.evaluate one := by
  have value : (expression.term.rename spell).value other = expression.term.value one := by
    cases expression.term with
    | number numeral => rfl
    | symbol name => exact congrArg (Option.getD · .unresolved) (renamed.find?_eq name)
  unfold Expression.evaluate Expression.rename
  rw [value]

theorem ofReference_rename (renamed : Follows spell Eq one other)
    (injective : Function.Injective spell) (name : String) :
    Record.ofReference other (spell name) = (Record.ofReference one name).rename spell := by
  unfold Record.ofReference
  rw [renamed.index? injective]
  rfl

theorem ofTerm_rename (renamed : Follows spell Eq one other) (injective : Function.Injective spell)
    (term : Term) :
    Record.ofTerm other (term.rename spell) = (Record.ofTerm one term).rename spell := by
  cases term with
  | number numeral => rfl
  | symbol name => exact renamed.ofReference_rename injective name

end SymbolTable.Follows

theorem State.Follows.mentionTerm_rename {spell : String → String} {one other : State}
    (renamed : State.Renamed spell one other) (injective : Function.Injective spell) (term : Term) :
    State.Renamed spell (one.mentionTerm term) (other.mentionTerm (term.rename spell)) := by
  cases term with
  | number numeral => exact renamed
  | symbol name => exact renamed.mention injective rfl name

/-- An expression has no address only because of a symbol; a number always has
one. -/
theorem Expression.text_rename_of_evaluate (spell : String → String) {expression : Expression}
    {symbols : SymbolTable} {value : Symbol.Value}
    (evaluated : expression.evaluate symbols = .ok value) (noAddress : value.address? = none) :
    (expression.rename spell).term.text = spell expression.term.text := by
  rcases expression with ⟨numeral | name, arithmetic⟩
  · rcases arithmetic with _ | ⟨operator, second⟩
    · cases evaluated
      cases noAddress
    · simp only [evaluate, Term.value] at evaluated
      cases applied : operator.apply numeral.value.value second.value.value with
      | error fault =>
          rw [applied] at evaluated
          cases evaluated
      | ok place =>
          rw [applied] at evaluated
          cases evaluated
          cases noAddress
  · rfl

/-- A run and the run of the renamed program. -/
def Lockstep.renamed (spell : String → String) : Lockstep where
  states := State.Renamed spell
  counters one other := other = one
  records one other := other = one.map (Record.rename spell)
  fault := Fault.rename spell
  admits _ := True
  counters_of_states renamed := renamed.counter
  records_nil := rfl
  records_append first second := by rw [first, second, List.map_append]

namespace Operation

variable {spell : String → String} {one other : State}

theorem renamed_executeStart (renamed : State.Renamed spell one other) (mnemonic : String)
    (descriptor : Descriptor) (address : Numeral) :
    (Lockstep.renamed spell).Effects (executeStart mnemonic descriptor address one)
      (executeStart mnemonic descriptor address other) := by
  unfold executeStart
  rw [renamed.counter]
  cases one.counter.startAt address.value with
  | ok counter => exact ⟨⟨renamed.symbols, rfl⟩, rfl, rfl⟩
  | error refusal =>
      exact ⟨renamed, rfl, congrArg List.singleton (Fault.rename_ofRefusal spell _ _).symm⟩

theorem renamed_executeFinish (renamed : State.Renamed spell one other) (mnemonic : String)
    (descriptor : Descriptor) :
    (Lockstep.renamed spell).Effects (executeFinish mnemonic descriptor one)
      (executeFinish mnemonic descriptor other) := by
  unfold executeFinish
  rw [renamed.counter]
  rcases one.counter.finish with ⟨_ | refusal, counter⟩
  · exact ⟨⟨renamed.symbols, rfl⟩, rfl, rfl⟩
  · exact ⟨⟨renamed.symbols, rfl⟩, rfl,
      congrArg List.singleton (Fault.rename_ofRefusal spell _ _).symm⟩

theorem renamed_executeOrigin (injective : Function.Injective spell)
    (renamed : State.Renamed spell one other) (mnemonic : String) (descriptor : Descriptor)
    (target : Expression) :
    (Lockstep.renamed spell).Effects (executeOrigin mnemonic descriptor target one)
      (executeOrigin mnemonic descriptor (target.rename spell) other) := by
  have records : [.ofDescriptor none descriptor,
      Record.ofTerm other.symbols (target.term.rename spell)] =
        [.ofDescriptor none descriptor, .ofTerm one.symbols target.term].map
          (Record.rename spell) := by
    rw [renamed.symbols.ofTerm_rename injective]
    rfl
  unfold executeOrigin
  rw [renamed.counter, renamed.symbols.evaluate_rename]
  cases one.counter.here with
  | error refusal =>
      exact ⟨renamed, records, congrArg List.singleton (Fault.rename_ofRefusal spell _ _).symm⟩
  | ok here =>
      cases evaluated : target.evaluate one.symbols with
      | error fault =>
          exact ⟨renamed, records, congrArg List.singleton (Fault.rename_ofArithmetic spell _).symm⟩
      | ok value =>
          cases value with
          | address place =>
              simp only
              cases one.counter.moveTo place with
              | error refusal =>
                  exact ⟨renamed, records,
                    congrArg List.singleton (Fault.rename_ofRefusal spell _ _).symm⟩
              | ok counter => exact ⟨⟨renamed.symbols, rfl⟩, records, rfl⟩
          | unresolved =>
              have named := target.text_rename_of_evaluate spell evaluated rfl
              exact ⟨renamed, records, congrArg (fun name => [Fault.unresolvedSymbol name]) named⟩
          | unplaced =>
              have named := target.text_rename_of_evaluate spell evaluated rfl
              exact ⟨renamed, records, congrArg (fun name => [Fault.unplacedSymbol name]) named⟩

theorem renamed_executeEquate (injective : Function.Injective spell)
    (renamed : State.Renamed spell one other) (descriptor : Descriptor) (label : Option String)
    (meaning : Expression) :
    (Lockstep.renamed spell).Effects (executeEquate descriptor label meaning one)
      (executeEquate descriptor (label.map spell) (meaning.rename spell) other) := by
  have mentioned : State.Renamed spell (one.mentionTerm meaning.term)
      (other.mentionTerm (meaning.rename spell).term) :=
    renamed.mentionTerm_rename injective meaning.term
  have records : (executeEquate descriptor (label.map spell) (meaning.rename spell) other).records =
      (executeEquate descriptor label meaning one).records.map (Record.rename spell) := by
    rw [records_executeEquate, records_executeEquate, List.map_cons, List.map_singleton]
    rw [← mentioned.symbols.ofTerm_rename injective]
    rfl
  cases label with
  | none => exact ⟨mentioned, records, rfl⟩
  | some name =>
      have evaluated := mentioned.symbols.evaluate_rename meaning
      cases result : meaning.evaluate (one.mentionTerm meaning.term).symbols with
      | ok value =>
          rw [result] at evaluated
          refine ⟨?_, records, ?_⟩
          · simp only [executeEquate, Option.map_some, result, evaluated]
            exact mentioned.bind injective name rfl
          · simp only [executeEquate, Option.map_some, List.map_nil, result, evaluated]
      | error fault =>
          rw [result] at evaluated
          refine ⟨?_, records, ?_⟩
          · simp only [executeEquate, Option.map_some, result, evaluated]
            exact mentioned.bind injective name rfl
          · simp only [executeEquate, Option.map_some, result, evaluated]
            exact congrArg List.singleton (Fault.rename_ofArithmetic spell fault).symm

theorem renamed_executeReserve (renamed : State.Renamed spell one other) (mnemonic : String)
    (descriptor : Descriptor) (count : Numeral) :
    (Lockstep.renamed spell).Effects (executeReserve mnemonic descriptor count one)
      (executeReserve mnemonic descriptor count other) := by
  unfold executeReserve
  rw [renamed.counter]
  cases one.counter.occupy count.value.value with
  | ok taken => exact ⟨⟨renamed.symbols, rfl⟩, rfl, rfl⟩
  | error refusal =>
      exact ⟨renamed, rfl, congrArg List.singleton (Fault.rename_ofRefusal spell _ _).symm⟩

theorem renamed_executeWord (renamed : State.Renamed spell one other) (mnemonic : String)
    (descriptor : Descriptor) :
    (Lockstep.renamed spell).Effects (executeWord mnemonic descriptor one)
      (executeWord mnemonic descriptor other) := by
  unfold executeWord
  rw [renamed.counter]
  cases one.counter.occupy 1 with
  | ok taken => exact ⟨⟨renamed.symbols, rfl⟩, rfl, rfl⟩
  | error refusal =>
      exact ⟨renamed, rfl, congrArg List.singleton (Fault.rename_ofRefusal spell _ _).symm⟩

end Operation

/-- A renamed statement does the same under the new names. -/
theorem Statement.renamed_execute {spell : String → String} (injective : Function.Injective spell)
    (statement : Statement) :
    (Lockstep.renamed spell).Statements statement (statement.rename spell) := by
  intro one other renamed _ _
  cases statement with
  | instruction mnemonic descriptor operation =>
      cases operation with
      | start address => exact Operation.renamed_executeStart renamed mnemonic descriptor address
      | finish => exact Operation.renamed_executeFinish renamed mnemonic descriptor
      | origin target =>
          exact Operation.renamed_executeOrigin injective renamed mnemonic descriptor target
      | equate label meaning =>
          exact Operation.renamed_executeEquate injective renamed descriptor label meaning
      | reserve count => exact Operation.renamed_executeReserve renamed mnemonic descriptor count
      | word => exact Operation.renamed_executeWord renamed mnemonic descriptor
      | malformed operands fault => exact ⟨renamed, rfl, rfl⟩
  | label name =>
      refine ⟨?_, rfl, rfl⟩
      simp only [rename, execute]
      rw [renamed.counter]
      exact renamed.bind injective name rfl
  | reference name =>
      have mentioned := renamed.mentionTerm_rename injective (.symbol name)
      exact ⟨mentioned, congrArg List.singleton
        (mentioned.symbols.ofReference_rename injective name), rfl⟩
  | register word code => exact ⟨renamed, rfl, rfl⟩
  | condition word code => exact ⟨renamed, rfl, rfl⟩
  | constant digits => exact ⟨renamed, rfl, rfl⟩

/-! ## Reports of renamed programs -/

theorem SymbolTable.ordered_insertIfNew {table : SymbolTable} (name : String) (value : Symbol.Value)
    (ordered : table.values.Ordered) : (table.insertIfNew name value).2.values.Ordered := by
  unfold insertIfNew
  cases table.find? name with
  | none => exact ordered.insert name value
  | some before => exact ordered

theorem SymbolTable.ordered_assign {table : SymbolTable} (name : String) (value : Symbol.Value)
    (ordered : table.values.Ordered) : (table.assign name value).2.values.Ordered := by
  unfold assign
  cases table.find? name <;> exact ordered.insert name value

/-- The values of a table that a run reaches stand in alphabetical order. -/
theorem State.ordered_reached (set : InstructionSet) (lines : List String) :
    (reached set lines).symbols.values.Ordered := by
  refine run_induction (fun state => state.symbols.values.Ordered) ?_ Lexicon.ordered_empty
  intro source _ state ordered
  refine Statement.executeAll_induction (fun state => state.symbols.values.Ordered) ?_ ordered
  intro statement _ state ordered
  exact statement.symbols_execute_of_changes (fun table => table.values.Ordered)
    SymbolTable.ordered_insertIfNew SymbolTable.ordered_assign ordered

theorem Lexicon.find?_rename {Meaning : Type} {lexicon : Lexicon Meaning}
    (ordered : lexicon.Ordered) {spell : String → String} (injective : Function.Injective spell)
    {word : String} {meaning : Meaning} :
    (lexicon.rename spell).find? word = some meaning ↔
      ∃ former, lexicon.find? former = some meaning ∧ spell former = word := by
  have nodup : ((lexicon.toList.map fun entry => (spell entry.1, entry.2)).map Prod.fst).Nodup := by
    rw [List.map_map]
    have mapped := ordered.nodup.map injective
    rw [List.map_map] at mapped
    exact mapped
  rw [Lexicon.rename, find?_ofList_eq_some_iff nodup, List.mem_map]
  constructor
  · rintro ⟨entry, member, same⟩
    rcases Prod.mk.inj same with ⟨isWord, isMeaning⟩
    exact ⟨entry.1, ordered.find?_eq_some_iff.mpr (isMeaning ▸ member), isWord⟩
  · rintro ⟨former, found, isWord⟩
    exact ⟨(former, meaning), ordered.find?_eq_some_iff.mp found, by rw [isWord]⟩

/-- Two tables in alphabetical order that agree up to the new names are the
same up to the new names. -/
theorem SymbolTable.Follows.eq_rename {spell : String → String} {one other : SymbolTable}
    (renamed : Follows spell Eq one other) (injective : Function.Injective spell)
    (sound : other.Sound) (first : one.values.Ordered) (second : other.values.Ordered) :
    other = one.rename spell := by
  have values : other.values = one.values.rename spell := by
    refine second.ext (Lexicon.ordered_ofList _) ?_
    intro word
    ext value
    rw [Lexicon.find?_rename first injective]
    constructor
    · intro found
      -- The order lists every name of the second table, so none of them is without a former name.
      have listed := (sound.mem_order_iff word).mpr (Option.isSome_of_mem found)
      rw [renamed.order] at listed
      rcases List.mem_map.mp listed with ⟨former, _, isWord⟩
      refine ⟨former, ?_, isWord⟩
      rw [← isWord] at found
      exact (renamed.find?_eq former).symm.trans found
    · rintro ⟨former, found, rfl⟩
      exact (renamed.find?_eq former).trans found
  rcases other with ⟨order, lexicon⟩
  exact congrArg₂ SymbolTable.mk renamed.order values

/-- The symbols are listed in corresponding order. -/
theorem SymbolTable.Follows.toList_eq_map {spell : String → String} {one other : SymbolTable}
    (renamed : Follows spell Eq one other) :
    other.toList = one.toList.map fun entry => (spell entry.1, entry.2) := by
  unfold SymbolTable.toList
  rw [renamed.order, List.filterMap_map, List.map_filterMap]
  congr 1
  funext name
  rw [Function.comp_apply, renamed.find?_eq, Option.map_map]
  rfl

attribute [ext] AssembledLine Report

theorem Lockstep.Lines.eq_rename {spell : String → String} {one other : AssembledLine}
    (lines : (Lockstep.renamed spell).Lines one other) : other = one.rename spell :=
  AssembledLine.ext lines.number lines.records lines.faults lines.counters

namespace Renaming

variable {set : InstructionSet} (naming : Renaming set)

theorem sources_line (line : String) :
    (Lockstep.renamed naming.text).Sources set line (naming.line line) := by
  unfold Lockstep.Sources
  rw [naming.ofLine_line, List.forall₂_map_right_iff, List.forall₂_same]
  intro statement _
  exact statement.renamed_execute naming.text_injective

end Renaming

/-! ## Exchanging two names -/

/-- A word has no meaning of its own. -/
structure Word.Free (set : InstructionSet) (word : Word) : Prop where
  unknown : word.text ∉ set.words
  notNumber : (Token.mk word.text).isNumber = false
  notOperator : Operator.ofSymbol? word.text = none

/-- Two free words can be exchanged. -/
def Renaming.exchange {set : InstructionSet} (one other : Word) (oneFree : one.Free set)
    (otherFree : other.Free set) : Renaming set where
  replace := Equiv.swap one other
  injective := (Equiv.swap one other).injective
  keeps_known := by
    intro word known
    apply Equiv.swap_apply_of_ne_of_ne
    · rintro rfl
      exact oneFree.unknown known
    · rintro rfl
      exact otherFree.unknown known
  keeps_number := by
    intro word isNumber
    apply Equiv.swap_apply_of_ne_of_ne
    · rintro rfl
      cases oneFree.notNumber.symm.trans isNumber
    · rintro rfl
      cases otherFree.notNumber.symm.trans isNumber
  keeps_operator := by
    intro word isOperator
    apply Equiv.swap_apply_of_ne_of_ne
    · rintro rfl
      rw [oneFree.notOperator] at isOperator
      cases isOperator
    · rintro rfl
      rw [otherFree.notOperator] at isOperator
      cases isOperator

theorem solid_loop : Token.Solid "LOOP".toList := by
  decide +kernel

theorem solid_zone : Token.Solid "ZONE".toList := by
  decide +kernel

/-- Two names that change places in the alphabet when they are exchanged. -/
def Word.loop : Word :=
  ⟨"LOOP", solid_loop⟩

def Word.zone : Word :=
  ⟨"ZONE", solid_zone⟩

theorem Word.free_loop : loop.Free .standard :=
  ⟨by decide +kernel, by decide +kernel, by decide +kernel⟩

theorem Word.free_zone : zone.Free .standard :=
  ⟨by decide +kernel, by decide +kernel, by decide +kernel⟩

def Renaming.loopZone : Renaming .standard :=
  exchange .loop .zone Word.free_loop Word.free_zone

/-! ## The report of a renamed program -/

/-- The report of a renamed program is the renamed report, and lists the
symbols in corresponding order. -/
theorem assemble_renamed (set : InstructionSet) (naming : Renaming set) (lines : List String) :
    assemble set (lines.map naming.line) = (assemble set lines).rename naming.text ∧
      (assemble set (lines.map naming.line)).symbols.toList =
        (assemble set lines).symbols.toList.map fun entry => (naming.text entry.1, entry.2) := by
  have sources : List.Forall₂ ((Lockstep.renamed naming.text).Sources set) lines
      (lines.map naming.line) := by
    rw [List.forall₂_map_right_iff, List.forall₂_same]
    exact fun line _ => naming.sources_line line
  have initial : State.Renamed naming.text {} {} := ⟨⟨rfl, fun _ => .none⟩, rfl⟩
  rcases (Lockstep.renamed naming.text).reports initial sources (fun _ _ _ _ => trivial)
    (fun _ _ _ _ => trivial) with ⟨correspond, last⟩
  have sameLines :
      List.Forall₂ Eq ((assemble set lines).lines.map (AssembledLine.rename naming.text))
        (assemble set (lines.map naming.line)).lines :=
    List.forall₂_map_left_iff.mpr (correspond.imp fun _ _ line => line.eq_rename.symm)
  rw [List.forall₂_eq_eq_eq] at sameLines
  constructor
  · apply Report.ext
    · exact sameLines.symm
    · rw [symbols_assemble, Report.rename, symbols_assemble]
      exact last.symbols.eq_rename naming.text_injective (State.sound_reached set _)
        (State.ordered_reached set lines) (State.ordered_reached set _)
    · rw [counter_assemble, Report.rename, counter_assemble]
      exact last.counter
  · rw [symbols_assemble, symbols_assemble]
    exact last.symbols.toList_eq_map

/-- One of the two names is used before it is defined, and is named in a fault. -/
theorem assemble_renamed_exchanged :
    let lines :=
      ["START 100", "ORIGIN LOOP", "LIMIT DS 2", "LOOP MOVER AREG LIMIT", "TAIL EQU LOOP ? 3",
      "LOOP EQU LIMIT - 1"]
    let renamed :=
      ["START 100", "ORIGIN ZONE", "LIMIT DS 2", "ZONE MOVER AREG LIMIT", "TAIL EQU ZONE ? 3",
      "ZONE EQU LIMIT - 1"]
    lines.map Renaming.loopZone.line = renamed ∧
      assemble .standard renamed = (assemble .standard lines).rename Renaming.loopZone.text := by
  intro lines renamed
  have spelled : lines.map Renaming.loopZone.line = renamed := by decide +kernel
  refine ⟨spelled, ?_⟩
  rw [← spelled]
  exact (assemble_renamed .standard Renaming.loopZone lines).1

end FirstPass
