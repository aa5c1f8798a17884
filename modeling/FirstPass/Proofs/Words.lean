import FirstPass.Token

namespace FirstPass

/-!
The words of a line.

A line is read from the front: a blank is passed over, and any other character
begins a word that goes on to the next blank or to the end of the line.  Words
can be replaced where they stand, and then the new line has the new words.
-/

namespace Token

/-- A run of characters that can be a word. -/
structure Solid (word : List Char) : Prop where
  nonempty : word ≠ []
  unbroken : ∀ c ∈ word, isBlank c = false

/-- The test for a word. -/
def isSolid (word : List Char) : Bool :=
  !word.isEmpty && word.all fun c => !isBlank c

theorem isSolid_iff {word : List Char} : isSolid word = true ↔ Solid word := by
  rw [isSolid, Bool.and_eq_true, Bool.not_eq_true', List.isEmpty_eq_false_iff, List.all_eq_true]
  constructor
  · rintro ⟨nonempty, unbroken⟩
    exact ⟨nonempty, fun c member => by simpa using unbroken c member⟩
  · rintro ⟨nonempty, unbroken⟩
    exact ⟨nonempty, fun c member => by simpa using unbroken c member⟩

instance (word : List Char) : Decidable (Solid word) :=
  decidable_of_iff (isSolid word = true) isSolid_iff

theorem words_nil : words [] = [] :=
  rfl

theorem words_cons_of_blank {blank : Char} (separates : isBlank blank = true) (rest : List Char) :
    words (blank :: rest) = words rest :=
  words_append_blank separates [] rest

/-- A word ends where a blank follows it, or nothing. -/
theorem words_append_of_solid {word : List Char} (solid : Solid word) {rest : List Char}
    (ends : ∀ c ∈ rest.head?, isBlank c = true) : words (word ++ rest) = word :: words rest := by
  have alone := words_of_no_blank solid.nonempty solid.unbroken
  cases rest with
  | nil => rw [List.append_nil, alone, words_nil]
  | cons blank after =>
      have separates := ends blank rfl
      rw [words_append_blank separates, alone, words_cons_of_blank separates, List.singleton_append]

/-- The characters from here to the next blank. -/
def untilBlank (text : List Char) : List Char :=
  text.takeWhile fun c => !isBlank c

/-- What is left from the next blank on. -/
def fromBlank (text : List Char) : List Char :=
  text.dropWhile fun c => !isBlank c

theorem untilBlank_append_fromBlank (text : List Char) : untilBlank text ++ fromBlank text = text :=
  List.takeWhile_append_dropWhile

theorem length_fromBlank_le (text : List Char) : (fromBlank text).length ≤ text.length :=
  (List.dropWhile_sublist _).length_le

theorem solid_cons_untilBlank {c : Char} (begins : isBlank c = false) (text : List Char) :
    Solid (c :: untilBlank text) where
  nonempty := List.cons_ne_nil c _
  unbroken := by
    intro d member
    rcases List.mem_cons.mp member with first | inside
    · rw [first]
      exact begins
    · have notBlank := List.all_eq_true.mp List.all_takeWhile d inside
      simpa using notBlank

theorem isBlank_of_head?_fromBlank (text : List Char) :
    ∀ c ∈ (fromBlank text).head?, isBlank c = true := by
  intro c isHead
  have stops := List.head?_dropWhile_not (fun c => !isBlank c) text
  rw [show (text.dropWhile fun c => !isBlank c).head? = some c from isHead] at stops
  simpa using stops

/-- The first word of a line that does not begin with a blank. -/
theorem words_cons_of_not_blank {c : Char} (begins : isBlank c = false) (rest : List Char) :
    words (c :: rest) = (c :: untilBlank rest) :: words (fromBlank rest) := by
  have whole : c :: rest = (c :: untilBlank rest) ++ fromBlank rest := by
    rw [List.cons_append, untilBlank_append_fromBlank]
  rw [whole]
  exact words_append_of_solid (solid_cons_untilBlank begins rest) (isBlank_of_head?_fromBlank rest)

/-- A text is gone through from its front.  Blanks are passed over one by one, and
a word is passed over as a whole. -/
theorem words_induction {Holds : List Char → Prop} (nil : Holds [])
    (blank : ∀ {c : Char} {rest : List Char}, isBlank c = true → Holds rest → Holds (c :: rest))
    (word : ∀ {word rest : List Char}, Solid word → (∀ c ∈ rest.head?, isBlank c = true) →
      Holds rest → Holds (word ++ rest)) : ∀ text, Holds text
  | [] => nil
  | c :: rest => by
      cases begins : isBlank c with
      | true => exact blank begins (words_induction nil blank word rest)
      | false =>
          have later := words_induction nil blank word (fromBlank rest)
          rw [← untilBlank_append_fromBlank rest]
          exact word (solid_cons_untilBlank begins rest) (isBlank_of_head?_fromBlank rest) later
termination_by text => text.length
decreasing_by
  · exact Nat.lt_succ_of_le (length_fromBlank_le rest)
  · exact Nat.lt_succ_self _

/-- Replace every word where it stands, and leave the blanks as they are. -/
def replaceWords (replace : List Char → List Char) : List Char → List Char
  | [] => []
  | c :: rest =>
      if isBlank c then c :: replaceWords replace rest
      else replace (c :: untilBlank rest) ++ replaceWords replace (fromBlank rest)
termination_by text => text.length
decreasing_by
  · exact Nat.lt_succ_self _
  · exact Nat.lt_succ_of_le (length_fromBlank_le rest)

theorem head?_replaceWords_of_blank (replace : List Char → List Char) {text : List Char}
    (ends : ∀ c ∈ text.head?, isBlank c = true) :
    ∀ c ∈ (replaceWords replace text).head?, isBlank c = true := by
  cases text with
  | nil =>
      rw [replaceWords]
      exact ends
  | cons blank rest =>
      rw [replaceWords, if_pos (ends blank rfl)]
      exact ends

/-- The new line has the new words. -/
theorem words_replaceWords {replace : List Char → List Char}
    (solid : ∀ word, Solid word → Solid (replace word)) (text : List Char) :
    words (replaceWords replace text) = (words text).map replace := by
  fun_induction replaceWords replace text with
  | case1 => rfl
  | case2 blank rest separates ih =>
      rw [words_cons_of_blank separates, words_cons_of_blank separates, ih]
  | case3 c rest begins ih =>
      have begins : isBlank c = false := by simpa using begins
      have isWord := solid _ (solid_cons_untilBlank begins rest)
      have ends := head?_replaceWords_of_blank replace (isBlank_of_head?_fromBlank rest)
      rw [words_append_of_solid isWord ends, words_cons_of_not_blank begins, List.map_cons, ih]

theorem solid_of_mem_words {text word : List Char} (member : word ∈ words text) : Solid word := by
  induction text using words_induction with
  | nil => cases member
  | blank separates ih =>
      rw [words_cons_of_blank separates] at member
      exact ih member
  | word solid ends ih =>
      rw [words_append_of_solid solid ends] at member
      rcases List.mem_cons.mp member with first | later
      · rw [first]
        exact solid
      · exact ih later

theorem solid_of_mem_scan {line : String} {token : Token} (member : token ∈ scan line) :
    Solid token.text.toList := by
  rcases List.mem_map.mp member with ⟨word, isWord, same⟩
  rw [← same, String.toList_ofList]
  exact solid_of_mem_words isWord

theorem isBlank_of_isDigit {c : Char} (isDigit : c.isDigit = true) : isBlank c = false := by
  cases blank : isBlank c with
  | false => rfl
  | true =>
      simp only [isBlank, Bool.or_eq_true, decide_eq_true_eq] at blank
      rcases blank with ((((rfl | rfl) | rfl) | rfl) | rfl) | rfl <;> cases isDigit

theorem isNumber_iff {token : Token} :
    token.isNumber = true ↔ token.text.toList ≠ [] ∧ ∀ c ∈ token.text.toList, c.isDigit = true := by
  rw [isNumber, Bool.and_eq_true, Bool.not_eq_true', ← Bool.not_eq_true, String.isEmpty_iff,
    List.all_eq_true, ne_eq, String.toList_eq_nil_iff]

theorem solid_of_isNumber {token : Token} (isNumber : token.isNumber = true) :
    Solid token.text.toList := by
  rcases isNumber_iff.mp isNumber with ⟨nonempty, digits⟩
  exact ⟨nonempty, fun c member => isBlank_of_isDigit (digits c member)⟩

end Token

/-- A text that can be a token. -/
structure Word where
  text : String
  solid : Token.Solid text.toList
deriving DecidableEq

end FirstPass
