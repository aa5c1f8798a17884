import FirstPass.Proofs.ListingLines

namespace FirstPass

/-!
What a printed symbol table tells.

A line of the table shows a name as it is, and a name can end with commas or be
the very words around it.  But a name has no blanks, so the comma that follows it is
the last character before the next blank, and a printed table can be read back:
the names in order, each with the text of its value.  From its text a value is known,
except that an unresolved symbol is shown like a symbol at minus one.
-/

/-! ## Values and their texts -/

namespace Decimal

theorem minus_not_mem_repr (number : Nat) : '-' ∉ number.repr.toList := by
  intro member
  cases isDigit_of_mem_repr member

theorem toList_ofInt_negSucc (below : Nat) :
    (ofInt (.negSucc below)).toList = '-' :: (below + 1).repr.toList := by
  rw [ofInt, String.toList_append]
  rfl

theorem repr_inj {first second : Nat} (same : first.repr = second.repr) : first = second := by
  rw [← value_repr first, same, value_repr]

/-- An integer is known from its decimal text. -/
theorem ofInt_inj {first second : Int} (same : ofInt first = ofInt second) : first = second := by
  have signed : ∀ magnitude below : Nat, ofInt (.ofNat magnitude) ≠ ofInt (.negSucc below) := by
    intro magnitude below same
    have minus : '-' ∈ (ofInt (.negSucc below)).toList := by
      rw [toList_ofInt_negSucc]
      exact List.mem_cons_self
    rw [← same] at minus
    exact minus_not_mem_repr magnitude minus
  cases first with
  | ofNat magnitude =>
      cases second with
      | ofNat other => rw [repr_inj same]
      | negSucc below => exact absurd same (signed magnitude below)
  | negSucc below =>
      cases second with
      | ofNat other => exact absurd same.symm (signed other below)
      | negSucc other =>
          have digits : (below + 1).repr = (other + 1).repr := by
            have chars := congrArg String.toList same
            rw [toList_ofInt_negSucc, toList_ofInt_negSucc] at chars
            exact String.toList_inj.mp (List.cons.inj chars).2
          rw [Nat.succ.inj (repr_inj digits)]

theorem ofInt_ne_of_letter {text : String} {letter : Char} (member : letter ∈ text.toList)
    (notDigit : letter.isDigit = false) (notMinus : letter ≠ '-') (number : Int) :
    ofInt number ≠ text := by
  intro same
  rw [← same] at member
  cases number with
  | ofNat magnitude =>
      rw [isDigit_of_mem_repr member] at notDigit
      cases notDigit
  | negSucc below =>
      rw [toList_ofInt_negSucc] at member
      rcases List.mem_cons.mp member with isMinus | isDigit
      · exact notMinus isMinus
      · rw [isDigit_of_mem_repr isDigit] at notDigit
        cases notDigit

end Decimal

theorem Address.text_eq_minusOne_iff {place : Address} : place.text = "-1" ↔ place.value = -1 := by
  constructor
  · intro shown
    exact Decimal.ofInt_inj shown
  · intro minusOne
    rw [text, minusOne]
    rfl

namespace Symbol

/-- The values that are equal, where a missing value is taken for minus one. -/
inductive Value.Alike : Value → Value → Prop
  | refl (value : Value) : Alike value value
  | missing {place : Address} (minusOne : place.value = -1) : Alike .unresolved (.address place)
  | found {place : Address} (minusOne : place.value = -1) : Alike (.address place) .unresolved

/-- The values with the same text. -/
theorem Value.text_eq_iff {first second : Value} :
    first.text = second.text ↔ Alike first second := by
  have unplaced : ∀ place : Address, place.text ≠ "unplaced" := fun place =>
    Decimal.ofInt_ne_of_letter (show 'u' ∈ _ by decide) (by decide) (by decide) place.value
  constructor
  · intro same
    cases first with
    | address place =>
        cases second with
        | address other =>
            rcases place with ⟨number, fits⟩
            have sameNumber : number = other.value := Decimal.ofInt_inj same
            subst sameNumber
            exact .refl _
        | unresolved => exact .found (Address.text_eq_minusOne_iff.mp same)
        | unplaced => exact absurd same (unplaced place)
    | unresolved =>
        cases second with
        | address other => exact .missing (Address.text_eq_minusOne_iff.mp same.symm)
        | unresolved => exact .refl _
        | unplaced => exact absurd same (by decide)
    | unplaced =>
        cases second with
        | address other => exact absurd same.symm (unplaced other)
        | unresolved => exact absurd same (by decide)
        | unplaced => exact .refl _
  · intro alike
    cases alike with
    | refl => rfl
    | missing minusOne => exact (Address.text_eq_minusOne_iff.mpr minusOne).symm
    | found minusOne => exact Address.text_eq_minusOne_iff.mpr minusOne

end Symbol

/-! ## Reading a printed table -/

namespace Token

variable {word : List Char} {blank : Char}

theorem untilBlank_append_blank (unbroken : ∀ c ∈ word, isBlank c = false)
    (separates : isBlank blank = true) (rest : List Char) :
    untilBlank (word ++ blank :: rest) = word := by
  have goesOn : ∀ c ∈ word, (!isBlank c) = true := by
    intro c member
    rw [unbroken c member]
    rfl
  rw [untilBlank, List.takeWhile_append_of_pos goesOn, List.takeWhile_cons, separates]
  exact List.append_nil word

theorem fromBlank_append_blank (unbroken : ∀ c ∈ word, isBlank c = false)
    (separates : isBlank blank = true) (rest : List Char) :
    fromBlank (word ++ blank :: rest) = blank :: rest := by
  have whole := untilBlank_append_fromBlank (word ++ blank :: rest)
  rw [untilBlank_append_blank unbroken separates] at whole
  exact List.append_cancel_left whole

end Token

namespace SymbolTable

/-- The name and the text of the value that a line of a printed table shows. -/
def readLine (line : String) : String × String :=
  let shown := line.toList.drop "label: ".length
  (String.ofList (Token.untilBlank shown).dropLast,
    String.ofList ((Token.fromBlank shown).drop " Address: ".length))

/-- The names that a printed table shows, each with the text of its value. -/
def readText (text : String) : List (String × String) :=
  (Text.pieces text).dropLast.map readLine

/-- A line of a table is read back, whatever the name is made of. -/
theorem readLine_entryText {entry : String × Symbol.Value} (solid : Token.Solid entry.1.toList) :
    readLine (entryText entry) = (entry.1, entry.2.text) := by
  have chars : (entryText entry).toList =
      "label: ".toList ++
        ((entry.1.toList ++ [',']) ++ (' ' :: ("Address: ".toList ++ entry.2.text.toList))) := by
    simp [entryText]
  have unbroken : ∀ c ∈ entry.1.toList ++ [','], Token.isBlank c = false := by
    intro c member
    rcases List.mem_append.mp member with inName | isComma
    · exact solid.unbroken c inName
    · rw [List.mem_singleton.mp isComma]
      rfl
  have separates : Token.isBlank ' ' = true := rfl
  rw [readLine, chars, ← String.length_toList, List.drop_left,
    Token.untilBlank_append_blank unbroken separates,
    Token.fromBlank_append_blank unbroken separates, List.dropLast_concat, String.ofList_toList]
  exact congrArg (Prod.mk entry.1) String.ofList_toList

/-- A printed table is read back: the names in order, each with the text of its
value. -/
theorem readText_text {table : SymbolTable}
    (solid : ∀ entry ∈ table.toList, Token.Solid entry.1.toList) :
    readText table.text = table.toList.map fun entry => (entry.1, entry.2.text) := by
  have cut : Text.pieces table.text = table.lines ++ [""] :=
    Text.pieces_unlines (unbroken_of_mem_lines solid)
  rw [readText, cut, List.dropLast_concat, lines, List.map_map]
  exact List.map_congr_left fun entry isEntry => readLine_entryText (solid entry isEntry)

/-- Entries with the same names in the same order are shown alike if no name has
two values that are shown differently. -/
theorem map_entryText_eq {first second : List (String × Symbol.Value)}
    (names : first.map Prod.fst = second.map Prod.fst)
    (values : ∀ name value other, (name, value) ∈ first → (name, other) ∈ second →
      value.text = other.text) : first.map entryText = second.map entryText := by
  induction first generalizing second with
  | nil => rw [List.map_eq_nil_iff.mp names.symm]
  | cons entry rest ih =>
      rcases List.exists_cons_of_ne_nil (show second ≠ [] by rintro rfl; cases names) with
        ⟨other, later, isSecond⟩
      subst isSecond
      rcases List.cons.inj names with ⟨sameName, sameNames⟩
      rcases entry with ⟨name, value⟩
      rcases other with ⟨_, otherValue⟩
      subst sameName
      have here : value.text = otherValue.text :=
        values name value otherValue List.mem_cons_self List.mem_cons_self
      have after := ih sameNames fun name value other inRest inLater =>
        values name value other (List.mem_cons_of_mem _ inRest) (List.mem_cons_of_mem _ inLater)
      rw [List.map_cons, List.map_cons, after, entryText, entryText, here]

/-- Two programs have the same printed symbol table exactly if they have the same
names in the same order and each name has the same value, where a missing value is
taken for minus one. -/
theorem text_eq_iff_alike (set otherSet : InstructionSet) (lines otherLines : List String) :
    let table := (assemble set lines).symbols
    let other := (assemble otherSet otherLines).symbols
    table.text = other.text ↔
      table.toList.map Prod.fst = other.toList.map Prod.fst ∧
      ∀ name value otherValue, table.find? name = some value → other.find? name = some otherValue →
        Symbol.Value.Alike value otherValue := by
  intro table other
  constructor
  · intro same
    have shown : (table.toList.map fun entry => (entry.1, entry.2.text)) =
        other.toList.map fun entry => (entry.1, entry.2.text) := by
      rw [← readText_text fun _ => solid_of_symbol, ← readText_text fun _ => solid_of_symbol, same]
    refine ⟨?_, ?_⟩
    · have names := congrArg (List.map Prod.fst) shown
      rw [List.map_map, List.map_map] at names
      exact names
    · intro name value otherValue found otherFound
      have listed : (name, value.text) ∈ table.toList.map fun entry => (entry.1, entry.2.text) :=
        List.mem_map.mpr ⟨(name, value), (sound_assemble set lines).mem_toList found, rfl⟩
      rw [shown] at listed
      rcases List.mem_map.mp listed with ⟨⟨_, third⟩, isEntry, sameShown⟩
      rcases Prod.mk.inj sameShown with ⟨sameName, sameText⟩
      subst sameName
      have sameValue : third = otherValue :=
        Option.some.inj ((find?_of_mem_toList isEntry).symm.trans otherFound)
      rw [sameValue] at sameText
      exact Symbol.Value.text_eq_iff.mp sameText.symm
  · rintro ⟨names, values⟩
    have entries := map_entryText_eq names fun name value otherValue isEntry isOther =>
      Symbol.Value.text_eq_iff.mpr
        (values name value otherValue (find?_of_mem_toList isEntry) (find?_of_mem_toList isOther))
    exact congrArg Text.unlines entries

-- A symbol that is only used is shown like one equated to minus one.
example :
    let used := (assemble .standard ["PRINT A"]).symbols
    let equated := (assemble .standard ["A EQU 0 - 1"]).symbols
    used.text = equated.text ∧ used.find? "A" = some .unresolved ∧
      equated.find? "A" = some (.address ⟨-1, by decide⟩) := by
  decide +kernel

end SymbolTable
end FirstPass
