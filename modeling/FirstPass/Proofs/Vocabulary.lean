import FirstPass.Assembly
import Mathlib.Data.List.Induction

namespace FirstPass

/-!
Vocabularies.

An instruction set has three tables of words.  A word that is in more than one
of them has the meaning of the first, so a table can shadow the ones after it.
An instruction set is built by definitions, which put a word into a table or
replace what the table said about it; so each table is a finite map, in which
the last definition of a word counts.

The first pass looks a word up in no other way.  Two instruction sets that give
the same meaning to all words of a program therefore have the same report for
it, whatever else they say and in whatever order they were defined.
-/

/-- The tables of an instruction set, in the order in which they are asked. -/
inductive Table
  | instructions
  | registers
  | conditions
deriving DecidableEq, Repr

/-- Whether a table is asked before another. -/
def Table.Precedes : Table → Table → Prop
  | .instructions, .registers | .instructions, .conditions | .registers, .conditions => True
  | _, _ => False

/-- What a table says about a word. -/
inductive WordMeaning
  | mnemonic (descriptor : Descriptor)
  | register (code : OperandCode)
  | condition (code : OperandCode)
deriving DecidableEq, Repr

/-- A definition of a word in one of the tables. -/
inductive Definition
  | instruction (name : String) (code : UInt8) (category : Category)
  | register (name : String) (code : UInt8)
  | condition (name : String) (code : UInt8)
deriving DecidableEq, Repr

namespace Definition

def name : Definition → String
  | .instruction name _ _ | .register name _ | .condition name _ => name

def table : Definition → Table
  | .instruction _ _ _ => .instructions
  | .register _ _ => .registers
  | .condition _ _ => .conditions

/-- What the table says about the word afterwards. -/
def meaning : Definition → WordMeaning
  | .instruction name code category => .mnemonic ⟨⟨code⟩, category, Role.ofMnemonic name⟩
  | .register _ code => .register ⟨code⟩
  | .condition _ code => .condition ⟨code⟩

end Definition

/-- What an insertion does to an entry, seen through a view of the entries. -/
theorem Lexicon.map_find?_insert {Entry View : Type} (lexicon : Lexicon Entry) (name : String)
    (entry : Entry) (word : String) (view : Entry → View) :
    ((lexicon.insert name entry).find? word).map view =
      if name = word then some (view entry) else (lexicon.find? word).map view := by
  rw [find?_insert]
  by_cases same : name = word
  · rw [if_pos same, if_pos same.symm, Option.map_some]
  · rw [if_neg same, if_neg fun equal => same equal.symm]

namespace InstructionSet

/-- What a table says about a word, if it has it. -/
def listed? (set : InstructionSet) (table : Table) (word : String) : Option WordMeaning :=
  match table with
  | .instructions => (set.instruction? word).map .mnemonic
  | .registers => (set.register? word).map .register
  | .conditions => (set.condition? word).map .condition

/-- What a word means: what the first table says that has it. -/
def meaning? (set : InstructionSet) (word : String) : Option WordMeaning :=
  (set.listed? .instructions word).or
    ((set.listed? .registers word).or (set.listed? .conditions word))

def define (set : InstructionSet) : Definition → InstructionSet
  | .instruction name code category => set.addInstruction name code category
  | .register name code => set.addRegister name code
  | .condition name code => set.addCondition name code

/-- Define words one after the other. -/
def defineAll (set : InstructionSet) (definitions : List Definition) : InstructionSet :=
  definitions.foldl define set

/-- An instruction set that was built by definitions, starting from nothing. -/
def Built (set : InstructionSet) : Prop :=
  ∃ definitions, set = empty.defineAll definitions

/-- A table before the one of a definition has its word, so that the definition
does not matter. -/
def Shadows (set : InstructionSet) (definition : Definition) : Prop :=
  ∃ table, table.Precedes definition.table ∧ (set.listed? table definition.name).isSome = true

/-! ## Tables as finite maps -/

/-- A definition changes one entry of one table. -/
theorem listed?_define (set : InstructionSet) (definition : Definition) (table : Table)
    (word : String) :
    (set.define definition).listed? table word =
      if definition.table = table ∧ definition.name = word then some definition.meaning
      else set.listed? table word := by
  by_cases sameTable : definition.table = table
  · subst sameTable
    simp only [true_and]
    cases definition with
    | instruction name code category =>
        exact set.instructions.map_find?_insert name _ word WordMeaning.mnemonic
    | register name code => exact set.registers.map_find?_insert name _ word WordMeaning.register
    | condition name code => exact set.conditions.map_find?_insert name _ word WordMeaning.condition
  · rw [if_neg fun both => sameTable both.1]
    cases definition with
    | instruction name code category =>
        cases table with
        | instructions => exact absurd rfl sameTable
        | registers => rfl
        | conditions => rfl
    | register name code =>
        cases table with
        | instructions => rfl
        | registers => exact absurd rfl sameTable
        | conditions => rfl
    | condition name code =>
        cases table with
        | instructions => rfl
        | registers => rfl
        | conditions => exact absurd rfl sameTable

/-- Of the definitions of a word in a table the last one counts. -/
theorem listed?_defineAll (set : InstructionSet) (definitions : List Definition) (table : Table)
    (word : String) :
    (set.defineAll definitions).listed? table word =
      ((definitions.reverse.find? fun definition => definition.table = table ∧
        definition.name = word).map
        Definition.meaning).or (set.listed? table word) := by
  induction definitions using List.reverseRecOn with
  | nil => rfl
  | append_singleton earlier last ih =>
      have whole : set.defineAll (earlier ++ [last]) = (set.defineAll earlier).define last :=
        List.foldl_append
      rw [whole, listed?_define, List.reverse_append, List.reverse_singleton, List.singleton_append,
        List.find?_cons, ih]
      by_cases replaced : last.table = table ∧ last.name = word
      · simp [replaced]
      · simp [replaced]

/-- A definition matters for no other word and no other table. -/
theorem listed?_defineAll_of_ne (set : InstructionSet) (earlier later : List Definition)
    {definition : Definition} {table : Table} {word : String}
    (other : ¬ (definition.table = table ∧ definition.name = word)) :
    (set.defineAll (earlier ++ definition :: later)).listed? table word =
      (set.defineAll (earlier ++ later)).listed? table word := by
  simp only [listed?_defineAll, List.reverse_append, List.reverse_cons, List.append_assoc,
    List.find?_append, List.singleton_append, List.find?_cons, decide_eq_false other]

/-- Only the definitions of a word matter for it. -/
theorem listed?_defineAll_filter (set : InstructionSet) (definitions : List Definition)
    (table : Table) (word : String) :
    (set.defineAll (definitions.filter fun definition => definition.name = word)).listed? table
      word =
      (set.defineAll definitions).listed? table word := by
  have test : (fun definition : Definition =>
        decide (decide (definition.name = word) = true ∧
          decide (definition.table = table ∧ definition.name = word) = true)) =
      fun definition => decide (definition.table = table ∧ definition.name = word) := by
    funext definition
    by_cases named : definition.name = word <;> simp [named]
  rw [listed?_defineAll, listed?_defineAll, ← List.filter_reverse, List.find?_filter, test]

/-! ## Instruction sets that were built -/

theorem Built.defineAll {set : InstructionSet} (built : set.Built) (definitions : List Definition) :
    (set.defineAll definitions).Built := by
  rcases built with ⟨earlier, isSet⟩
  refine ⟨earlier ++ definitions, ?_⟩
  rw [isSet]
  exact List.foldl_append.symm

/-- The definitions of the standard instruction set. -/
def standardDefinitions : List Definition :=
  standardInstructions.map (fun (name, code, category) => .instruction name code category) ++
    (standardRegisters.map (fun (name, code) => .register name code) ++
      standardConditions.map fun (name, code) => .condition name code)

theorem built_standard : standard.Built := by
  refine ⟨standardDefinitions, ?_⟩
  unfold InstructionSet.defineAll standardDefinitions
  rw [List.foldl_append, List.foldl_append, List.foldl_map, List.foldl_map, List.foldl_map]
  rfl

/-- The role of a mnemonic follows from its name. -/
theorem Built.role_eq {set : InstructionSet} (built : set.Built) {mnemonic : String}
    {descriptor : Descriptor} (known : set.instruction? mnemonic = some descriptor) :
    descriptor.role = Role.ofMnemonic mnemonic := by
  rcases built with ⟨definitions, isSet⟩
  have listed : set.listed? .instructions mnemonic = some (.mnemonic descriptor) := by
    rw [listed?, known, Option.map_some]
  rw [isSet, listed?_defineAll, Option.or_eq_some_iff] at listed
  rcases listed with defined | ⟨_, initial⟩
  · rcases Option.map_eq_some_iff.mp defined with ⟨definition, found, isMeaning⟩
    have isNamed := List.find?_some found
    simp only [decide_eq_true_eq] at isNamed
    cases definition with
    | instruction name code category =>
        cases isMeaning
        exact congrArg Role.ofMnemonic isNamed.2
    | register name code => cases isMeaning
    | condition name code => cases isMeaning
  · cases initial

/-! ## What decides the meaning of a word -/

theorem meaning?_congr {one other : InstructionSet} {word : String}
    (same : ∀ table, one.listed? table word = other.listed? table word) :
    one.meaning? word = other.meaning? word := by
  unfold meaning?
  rw [same, same, same]

/-- If a table has a word, then the tables after it do not matter. -/
theorem meaning?_congr_of_listed? {one other : InstructionSet} {word : String} {table : Table}
    (has : (other.listed? table word).isSome = true)
    (same : ∀ before, ¬ table.Precedes before →
      one.listed? before word = other.listed? before word) :
    one.meaning? word = other.meaning? word := by
  rcases Option.isSome_iff_exists.mp has with ⟨meaning, found⟩
  unfold meaning?
  cases table with
  | instructions => rw [same .instructions id, found, Option.some_or, Option.some_or]
  | registers =>
      rw [same .instructions id, same .registers id, found, Option.some_or, Option.some_or]
  | conditions => rw [same .instructions id, same .registers id, same .conditions id]

/-- A definition does not change the meaning of other words, and not even of its
own if a table before its own has that word. -/
theorem meaning?_defineAll_of_idle {set : InstructionSet} {earlier later : List Definition}
    {definition : Definition} {word : String}
    (idle : (set.defineAll (earlier ++ later)).Shadows definition ∨ definition.name ≠ word) :
    (set.defineAll (earlier ++ definition :: later)).meaning? word =
      (set.defineAll (earlier ++ later)).meaning? word := by
  by_cases named : definition.name = word
  · rcases idle with ⟨table, precedes, has⟩ | different
    · subst named
      apply meaning?_congr_of_listed? has
      intro before notAfter
      apply set.listed?_defineAll_of_ne earlier later
      rintro ⟨own, _⟩
      exact notAfter (own ▸ precedes)
    · exact absurd named different
  · apply meaning?_congr
    intro table
    apply set.listed?_defineAll_of_ne earlier later
    rintro ⟨_, same⟩
    exact named same

end InstructionSet

/-! ## Reading by meanings -/

namespace Statement

/-- A statement is read by the meaning of its first word. -/
theorem read_eq_of_meaning? (set : InstructionSet) (label : Option String) (token : Token)
    (rest : List Token) :
    read set label token rest =
      match set.meaning? token.text with
      | some (.mnemonic descriptor) =>
          .instruction token.text descriptor (Operation.read token.text descriptor.role label rest)
      | some (.register code) => .register token.text code
      | some (.condition code) => .condition token.text code
      | none =>
          if token.isNumber then .constant token.text
          else if rest.isEmpty then .reference token.text
          else .label token.text := by
  unfold read InstructionSet.meaning? InstructionSet.listed?
  cases set.instruction? token.text with
  | some descriptor => rfl
  | none =>
      cases set.register? token.text with
      | some code => rfl
      | none => cases set.condition? token.text <;> rfl

theorem readAll_congr {one other : InstructionSet} {tokens : List Token}
    (same : ∀ token ∈ tokens, one.meaning? token.text = other.meaning? token.text)
    (label : Option String) : readAll one label tokens = readAll other label tokens := by
  fun_induction readAll one label tokens with
  | case1 => rw [readAll]
  | case2 label token rest statement ih =>
      have here : read one label token rest = read other label token rest := by
        rw [read_eq_of_meaning?, read_eq_of_meaning?, same token List.mem_cons_self]
      have later := ih fun other member =>
        same other (List.mem_cons_of_mem token (List.mem_of_mem_drop member))
      rw [readAll, ← here, ← later]

theorem ofLine_congr {one other : InstructionSet} {source : String}
    (same : ∀ token ∈ Token.scan source, one.meaning? token.text = other.meaning? token.text) :
    ofLine one source = ofLine other source :=
  readAll_congr same none

end Statement

/-! ## Runs by meanings -/

/-- Two instruction sets mean the same by all words of a program. -/
def InstructionSet.AgreeOn (one other : InstructionSet) (lines : List String) : Prop :=
  ∀ source ∈ lines, ∀ token ∈ Token.scan source, one.meaning? token.text = other.meaning? token.text

theorem State.steps_congr {one other : InstructionSet} {lines : List String}
    (agree : one.AgreeOn other lines) (state : State) (number : Nat) :
    state.steps one number lines = state.steps other number lines := by
  induction lines generalizing state number with
  | nil => rfl
  | cons source rest ih =>
      rcases List.forall_mem_cons.mp agree with ⟨here, later⟩
      have step : state.step one number source = state.step other number source := by
        unfold State.step
        rw [Statement.ofLine_congr here]
      rw [steps, steps, step, ih later]

/-- The whole pass, down to its events, depends on the meanings only. -/
theorem transcribe_congr {one other : InstructionSet} {lines : List String}
    (agree : one.AgreeOn other lines) : transcribe one lines = transcribe other lines := by
  simp only [transcribe, State.steps_congr agree]

theorem assemble_congr {one other : InstructionSet} {lines : List String}
    (agree : one.AgreeOn other lines) : assemble one lines = assemble other lines :=
  congrArg Transcript.report (transcribe_congr agree)

/-- The first pass depends on the instruction set only through what the words of
the program mean.  So it does not matter whether a definition is made that a
table before its own shadows or whose word does not occur, and not in which order
different words are defined. -/
theorem assemble_of_same_meanings (lines : List String) :
    (∀ one other : InstructionSet, one.AgreeOn other lines →
      assemble one lines = assemble other lines) ∧
    (∀ (set : InstructionSet) (earlier : List Definition) (definition : Definition)
      (later : List Definition),
      (set.defineAll (earlier ++ later)).Shadows definition ∨
        (∀ source ∈ lines, ⟨definition.name⟩ ∉ Token.scan source) →
      assemble (set.defineAll (earlier ++ definition :: later)) lines =
        assemble (set.defineAll (earlier ++ later)) lines) ∧
    ∀ (set : InstructionSet) (one other : List Definition),
      (∀ name, (one.filter fun definition => definition.name = name) =
        other.filter fun definition => definition.name = name) →
      assemble (set.defineAll one) lines = assemble (set.defineAll other) lines := by
  refine ⟨fun one other agree => assemble_congr agree, ?_, ?_⟩
  · intro set earlier definition later idle
    apply assemble_congr
    intro source inLines token inSource
    apply InstructionSet.meaning?_defineAll_of_idle
    rcases idle with shadowed | unused
    · exact Or.inl shadowed
    · right
      intro named
      exact unused source inLines (named ▸ inSource)
  · intro set one other same
    apply assemble_congr
    intro source _ token _
    apply InstructionSet.meaning?_congr
    intro table
    rw [← set.listed?_defineAll_filter one, same, set.listed?_defineAll_filter other]

/-- A small instruction set that has the words of the program, a condition that a
mnemonic shadows, a mnemonic that does not occur, and two words defined in either
order. -/
theorem assemble_of_same_meanings_add :
    let lines := ["START 100", "ADD AREG X"]
    let few : InstructionSet := InstructionSet.empty.defineAll
      [.register "AREG" 1, .instruction "START" 1 .directive, .instruction "ADD" 1 .imperative]
    (few.AgreeOn .standard lines ∧ assemble few lines = assemble .standard lines) ∧
    ((few.defineAll [.condition "X" 3]).Shadows (.condition "ADD" 9) ∧
      assemble (few.defineAll [.condition "ADD" 9, .condition "X" 3]) lines =
        assemble (few.defineAll [.condition "X" 3]) lines) ∧
    ((∀ source ∈ lines, ⟨"SHIFT"⟩ ∉ Token.scan source) ∧
      assemble (few.defineAll [.register "X" 3, .instruction "SHIFT" 11 .imperative]) lines =
        assemble (few.defineAll [.register "X" 3]) lines) ∧
    assemble (few.defineAll [.register "X" 3, .condition "ADD" 9]) lines =
      assemble (few.defineAll [.condition "ADD" 9, .register "X" 3]) lines := by
  intro lines few
  rcases assemble_of_same_meanings lines with ⟨agreeing, idle, reordered⟩
  have agree : few.AgreeOn .standard lines := by
    unfold InstructionSet.AgreeOn
    decide +kernel
  have shadowed : (few.defineAll [.condition "X" 3]).Shadows (.condition "ADD" 9) :=
    ⟨.instructions, trivial, by decide +kernel⟩
  have unused : ∀ source ∈ lines, ⟨"SHIFT"⟩ ∉ Token.scan source := by
    decide +kernel
  have sameWithShadowed := idle few [] (.condition "ADD" 9) [.condition "X" 3] (Or.inl shadowed)
  have sameWithUnused :=
    idle few [.register "X" 3] (.instruction "SHIFT" 11 .imperative) [] (Or.inr unused)
  refine ⟨⟨agree, agreeing few .standard agree⟩, ⟨shadowed, sameWithShadowed⟩,
    ⟨unused, sameWithUnused⟩, reordered few _ _ ?_⟩
  intro name
  by_cases isMnemonic : "ADD" = name
  · subst isMnemonic
    rfl
  · simp [List.filter_cons, Definition.name, isMnemonic]

end FirstPass
