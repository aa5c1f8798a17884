import FirstPass.Proofs.Words

namespace FirstPass

/-!
The tokens of a line, described in three ways.

The tokens of a line are the runs of characters without a blank that go on as
far as possible.  They are also what a lexer finds that takes the longest match
of three patterns at each step, and prefers a number where a number and a word
match the same characters.  And they are the words that the line is written
with: whatever blanks stand between the words and at the ends, the words come
back.
-/

namespace Token

/-- Nothing but blanks. -/
def Blanks (gap : List Char) : Prop :=
  ∀ c ∈ gap, isBlank c = true

instance (gap : List Char) : Decidable (Blanks gap) :=
  decidable_of_iff (gap.all isBlank = true) List.all_eq_true

theorem Solid.exists_cons {word : List Char} (solid : Solid word) :
    ∃ c rest, word = c :: rest ∧ isBlank c = false := by
  cases word with
  | nil => exact absurd rfl solid.nonempty
  | cons c rest => exact ⟨c, rest, rfl, solid.unbroken c List.mem_cons_self⟩

/-! ## Runs -/

/-- A run of characters that are not blank and that goes on as far as possible,
to a blank or to an end of the text on either side. -/
structure Run (text front word back : List Char) : Prop where
  whole : text = front ++ (word ++ back)
  solid : Solid word
  begins : ∀ c ∈ front.getLast?, isBlank c = true
  ends : ∀ c ∈ back.head?, isBlank c = true

section Runs

variable {text front word back : List Char}

/-- A run does not begin at a blank. -/
theorem Run.not_blank_of_nil {c : Char} {rest : List Char} (run : Run (c :: rest) [] word back) :
    isBlank c = false := by
  rcases run.solid.exists_cons with ⟨first, more, isWord, notBlank⟩
  have whole := run.whole
  rw [isWord] at whole
  rw [(List.cons.inj whole).1]
  exact notBlank

/-- Words that stand at the same place and end there are the same. -/
theorem Run.eq_of_nil {first rest : List Char} (run : Run (first ++ rest) [] word back)
    (solid : Solid first) (ends : ∀ c ∈ rest.head?, isBlank c = true) :
    word = first ∧ back = rest := by
  have split : words (word ++ back) = words (first ++ rest) := congrArg words run.whole.symm
  rw [words_append_of_solid run.solid run.ends, words_append_of_solid solid ends] at split
  have same : word = first := (List.cons.inj split).1
  have whole := run.whole
  rw [same] at whole
  exact ⟨same, (List.append_cancel_left whole).symm⟩

theorem run_cons_iff {blank : Char} (separates : isBlank blank = true) :
    Run (blank :: text) front word back ↔
      ∃ rest, front = blank :: rest ∧ Run text rest word back := by
  constructor
  · intro run
    cases front with
    | nil =>
        rw [run.not_blank_of_nil] at separates
        cases separates
    | cons c rest =>
        rcases List.cons.inj run.whole with ⟨same, isText⟩
        subst same
        refine ⟨rest, rfl, isText, run.solid, ?_, run.ends⟩
        intro last isLast
        apply run.begins
        rw [List.getLast?_cons, isLast]
        rfl
  · rintro ⟨rest, isFront, run⟩
    subst isFront
    refine ⟨congrArg (blank :: ·) run.whole, run.solid, ?_, run.ends⟩
    intro last isLast
    rw [List.getLast?_cons, Option.mem_some_iff] at isLast
    cases found : rest.getLast? with
    | none =>
        rw [found, Option.getD_none] at isLast
        exact isLast ▸ separates
    | some c =>
        rw [found, Option.getD_some] at isLast
        exact run.begins last (isLast ▸ found)

theorem run_append_iff {first : List Char} (solid : Solid first)
    (ends : ∀ c ∈ text.head?, isBlank c = true) :
    Run (first ++ text) front word back ↔
      (front = [] ∧ word = first ∧ back = text) ∨
        ∃ rest, front = first ++ rest ∧ Run text rest word back := by
  constructor
  · intro run
    cases isFront : front.getLast? with
    | none =>
        have empty := List.getLast?_eq_none_iff.mp isFront
        subst empty
        exact Or.inl ⟨rfl, run.eq_of_nil solid ends⟩
    | some last =>
        -- The last character of the front is blank, so the front reaches beyond the first word.
        have blank := run.begins last isFront
        rcases List.append_eq_append_iff.mp run.whole with
          ⟨rest, isRest, isText⟩ | ⟨middle, isFirst, _⟩
        · refine Or.inr ⟨rest, isRest, isText, run.solid, ?_, run.ends⟩
          intro c isLast
          apply run.begins
          rw [isRest, List.getLast?_append, isLast]
          rfl
        · have inside : last ∈ first := by
            rw [isFirst]
            exact List.mem_append_left middle (List.mem_of_getLast? isFront)
          rw [solid.unbroken last inside] at blank
          cases blank
  · rintro (⟨isFront, isWord, isBack⟩ | ⟨rest, isFront, run⟩)
    · subst isFront isWord isBack
      exact ⟨rfl, solid, fun c absent => absurd absent (Option.not_mem_none c), ends⟩
    · subst isFront
      refine ⟨?_, run.solid, ?_, run.ends⟩
      · rw [List.append_assoc, ← run.whole]
      · intro last isLast
        cases found : rest.getLast? with
        | none =>
            -- A run at the very front would begin with the blank that ends the first word.
            have empty := List.getLast?_eq_none_iff.mp found
            subst empty
            rcases run.solid.exists_cons with ⟨c, more, isWord, notBlank⟩
            have blank := ends c (by rw [run.whole, isWord]; rfl)
            rw [notBlank] at blank
            cases blank
        | some c =>
            rw [List.getLast?_append, found] at isLast
            exact run.begins last (found.trans isLast)

/-- A run, given by what stands before it, in a text with more in front. -/
def behind (first : List Char) (run : List Char × List Char) : List Char × List Char :=
  (first ++ run.1, run.2)

theorem ordered_behind (first : List Char) {runs : List (List Char × List Char)}
    (ordered : runs.Pairwise fun one other => one.1.length < other.1.length) :
    (runs.map (behind first)).Pairwise fun one other => one.1.length < other.1.length := by
  rw [List.pairwise_map]
  apply ordered.imp
  intro one other less
  rw [behind, behind, List.length_append, List.length_append]
  exact Nat.add_lt_add_left less _

theorem mem_behind_iff (first : List Char) {runs : List (List Char × List Char)}
    (exactly : ∀ front word, (front, word) ∈ runs ↔ ∃ back, Run text front word back) :
    (front, word) ∈ runs.map (behind first) ↔
      ∃ back rest, front = first ++ rest ∧ Run text rest word back := by
  rw [List.mem_map]
  constructor
  · rintro ⟨⟨rest, other⟩, member, same⟩
    rcases (exactly rest other).mp member with ⟨back, run⟩
    rcases Prod.mk.inj same with ⟨isFront, isWord⟩
    subst isWord
    exact ⟨back, rest, isFront.symm, run⟩
  · rintro ⟨back, rest, isFront, run⟩
    exact ⟨(rest, word), (exactly rest word).mpr ⟨back, run⟩, by rw [behind, isFront]⟩

end Runs

/-- The words of a text are its runs, from left to right. -/
theorem exists_runs (text : List Char) :
    ∃ runs : List (List Char × List Char), runs.map Prod.snd = words text ∧
      runs.Pairwise (fun one other => one.1.length < other.1.length) ∧
      ∀ front word, (front, word) ∈ runs ↔ ∃ back, Run text front word back := by
  induction text using words_induction with
  | nil =>
      refine ⟨[], rfl, .nil, ?_⟩
      intro front word
      refine iff_of_false List.not_mem_nil ?_
      rintro ⟨back, run⟩
      have empty := List.append_eq_nil_iff.mp (List.append_eq_nil_iff.mp run.whole.symm).2
      exact run.solid.nonempty empty.1
  | @blank blank rest separates ih =>
      rcases ih with ⟨runs, areWords, ordered, exactly⟩
      refine ⟨runs.map (behind [blank]), ?_, ordered_behind [blank] ordered, ?_⟩
      · rw [words_cons_of_blank separates, ← areWords, List.map_map]
        rfl
      · intro front word
        simp only [run_cons_iff separates]
        exact mem_behind_iff [blank] exactly
  | @word first rest solid ends ih =>
      rcases ih with ⟨runs, areWords, ordered, exactly⟩
      refine ⟨([], first) :: runs.map (behind first), ?_, ?_, ?_⟩
      · rw [words_append_of_solid solid ends, ← areWords, List.map_cons, List.map_map]
        rfl
      · refine List.pairwise_cons.mpr ⟨?_, ordered_behind first ordered⟩
        intro run member
        rcases List.mem_map.mp member with ⟨later, _, isRun⟩
        rw [← isRun, behind, List.length_append]
        exact Nat.add_pos_left (List.length_pos_iff.mpr solid.nonempty) _
      · intro front word
        simp only [run_append_iff solid ends, List.mem_cons, Prod.mk.injEq,
          mem_behind_iff first exactly, exists_or]
        refine or_congr_left ?_
        constructor
        · rintro ⟨isFront, isWord⟩
          exact ⟨rest, isFront, isWord, rfl⟩
        · rintro ⟨_, isFront, isWord, _⟩
          exact ⟨isFront, isWord⟩

/-! ## The longest match -/

/-- What a lexer looks for: one or more characters of a class. -/
inductive Pattern
  | blanks
  | number
  | word
deriving DecidableEq, Repr

namespace Pattern

/-- The class of a pattern. -/
def accepts : Pattern → Char → Bool
  | .blanks, c => isBlank c
  | .number, c => c.isDigit
  | .word, c => !isBlank c

structure Matches (pattern : Pattern) (text : List Char) : Prop where
  nonempty : text ≠ []
  accepted : ∀ c ∈ text, pattern.accepts c = true

/-- A number has a higher priority than a word.  Blanks never match what another
pattern matches. -/
def Outranks (pattern other : Pattern) : Prop :=
  pattern = .number ∧ other = .word

/-- The pattern of a word. -/
def ofWord (word : List Char) : Pattern :=
  if word.all Char.isDigit then .number else .word

end Pattern

/-- The match that a lexer takes at the front of a text.  No pattern matches more
characters, and the other patterns that match the same ones have a lower
priority. -/
structure Longest (text : List Char) (pattern : Pattern) (lexeme rest : List Char) : Prop where
  whole : text = lexeme ++ rest
  isMatch : pattern.Matches lexeme
  longest : ∀ (other : Pattern) (front : List Char), front <+: text → other.Matches front →
    front.length ≤ lexeme.length
  preferred : ∀ other : Pattern, other.Matches lexeme → other = pattern ∨ pattern.Outranks other

/-- A lexer goes through a text match by match and passes over blanks.  It does not
say what happens where no pattern matches. -/
inductive Lexes : List Char → List (Pattern × List Char) → Prop
  | done : Lexes [] []
  | skip {text lexeme rest : List Char} {lexemes : List (Pattern × List Char)}
      (taken : Longest text .blanks lexeme rest) (later : Lexes rest lexemes) : Lexes text lexemes
  | take {text lexeme rest : List Char} {lexemes : List (Pattern × List Char)} {pattern : Pattern}
      (taken : Longest text pattern lexeme rest) (shown : pattern ≠ .blanks)
      (later : Lexes rest lexemes) :
      Lexes text ((pattern, lexeme) :: lexemes)

section Longest

variable {pattern : Pattern} {text lexeme rest : List Char}

/-- No pattern accepts a blank and a character that is not blank. -/
theorem Pattern.isBlank_of_accepts {c : Char} (accepted : pattern.accepts c = true) :
    isBlank c = decide (pattern = .blanks) := by
  cases pattern with
  | blanks => exact accepted
  | number => exact isBlank_of_isDigit accepted
  | word => simpa [accepts] using accepted

theorem Pattern.Matches.isBlank {c : Char} (isMatch : pattern.Matches text) (member : c ∈ text) :
    Token.isBlank c = decide (pattern = .blanks) :=
  isBlank_of_accepts (isMatch.accepted c member)

theorem Pattern.Matches.solid (isMatch : pattern.Matches lexeme) (shown : pattern ≠ .blanks) :
    Solid lexeme where
  nonempty := isMatch.nonempty
  unbroken := fun _ member => (isMatch.isBlank member).trans (decide_eq_false shown)

theorem Pattern.matches_ofWord {word : List Char} (solid : Solid word) :
    (ofWord word).Matches word where
  nonempty := solid.nonempty
  accepted := by
    intro c member
    unfold ofWord
    split
    · rename_i digits
      exact List.all_eq_true.mp digits c member
    · rw [accepts, solid.unbroken c member]
      rfl

/-- Of the patterns that match a word, the one of the word has the highest priority. -/
theorem Pattern.eq_ofWord_or_outranks {word : List Char} (solid : Solid word)
    (isMatch : pattern.Matches word) : pattern = ofWord word ∨ (ofWord word).Outranks pattern := by
  rcases solid.exists_cons with ⟨c, more, isWord, notBlank⟩
  have sameSide := isMatch.isBlank (show c ∈ word by rw [isWord]; exact List.mem_cons_self)
  unfold ofWord
  split
  · cases pattern with
    | blanks => rw [notBlank] at sameSide; cases sameSide
    | number => exact Or.inl rfl
    | word => exact Or.inr ⟨rfl, rfl⟩
  · rename_i notDigits
    cases pattern with
    | blanks => rw [notBlank] at sameSide; cases sameSide
    | number => exact absurd (List.all_eq_true.mpr isMatch.accepted) notDigits
    | word => exact Or.inl rfl

/-- A pattern that matches at the front of a text does not match beyond the
characters that are all blank, or all not blank. -/
theorem Pattern.Matches.length_le {front : List Char} {side : Bool}
    (isMatch : pattern.Matches front) (isFront : front <+: lexeme ++ rest) (nonempty : lexeme ≠ [])
    (inside : ∀ c ∈ lexeme, Token.isBlank c = side)
    (ends : ∀ c ∈ rest.head?, Token.isBlank c ≠ side) : front.length ≤ lexeme.length := by
  by_cases longer : lexeme.length < front.length
  · rcases List.prefix_of_prefix_length_le (List.prefix_append lexeme rest) isFront
      (Nat.le_of_lt longer) with
      ⟨_ | ⟨next, more⟩, whole⟩
    · rw [← whole, List.append_nil] at longer
      exact absurd longer (Nat.lt_irrefl _)
    · -- The match has a character of the lexeme and the one after it.
      rcases List.exists_mem_of_ne_nil lexeme nonempty with ⟨c, member⟩
      have here := isMatch.isBlank (whole ▸ List.mem_append_left (next :: more) member)
      have after := isMatch.isBlank (whole ▸ List.mem_append_right lexeme List.mem_cons_self)
      have follows : rest.head? = some next := by
        rcases isFront with ⟨tail, isText⟩
        rw [← whole, List.append_assoc] at isText
        rw [← List.append_cancel_left isText]
        rfl
      have sameSide : Token.isBlank next = side := by rw [after, ← here, inside c member]
      exact absurd sameSide (ends next follows)
  · exact Nat.not_lt.mp longer

theorem longest_of_solid {word : List Char} (solid : Solid word)
    (ends : ∀ c ∈ rest.head?, isBlank c = true) :
    Longest (word ++ rest) (.ofWord word) word rest where
  whole := rfl
  isMatch := Pattern.matches_ofWord solid
  longest := by
    intro other front isFront isMatch
    apply isMatch.length_le isFront solid.nonempty solid.unbroken
    intro c isHead
    rw [ends c isHead]
    exact Bool.false_ne_true.symm
  preferred := fun _ isMatch => Pattern.eq_ofWord_or_outranks solid isMatch

theorem longest_of_blanks {gap : List Char} (nonempty : gap ≠ []) (blank : Blanks gap)
    (ends : ∀ c ∈ rest.head?, isBlank c = false) : Longest (gap ++ rest) .blanks gap rest where
  whole := rfl
  isMatch := ⟨nonempty, blank⟩
  longest := by
    intro other front isFront isMatch
    apply isMatch.length_le isFront nonempty blank
    intro c isHead
    rw [ends c isHead]
    exact Bool.false_ne_true
  preferred := by
    intro other isMatch
    rcases List.exists_mem_of_ne_nil gap nonempty with ⟨c, member⟩
    have sameSide := (isMatch.isBlank member).symm.trans (blank c member)
    exact Or.inl (of_decide_eq_true sameSide)

/-- What is taken as a number or as a word goes on to the next blank. -/
theorem Longest.ends (taken : Longest text pattern lexeme rest) (shown : pattern ≠ .blanks) :
    ∀ c ∈ rest.head?, isBlank c = true := by
  intro c isHead
  cases blank : isBlank c with
  | true => rfl
  | false =>
      rcases List.head?_eq_some_iff.mp isHead with ⟨later, isRest⟩
      have solid := taken.isMatch.solid shown
      have longer : Pattern.word.Matches (lexeme ++ [c]) := by
        refine ⟨List.append_ne_nil_of_left_ne_nil solid.nonempty _, ?_⟩
        intro d member
        rcases List.mem_append.mp member with inside | isLast
        · rw [Pattern.accepts, solid.unbroken d inside]
          rfl
        · rw [Pattern.accepts, List.mem_singleton.mp isLast, blank]
          rfl
      have isFront : lexeme ++ [c] <+: text := by
        rw [taken.whole, isRest]
        exact ⟨later, by rw [List.append_assoc, List.singleton_append]⟩
      have atMost := taken.longest .word _ isFront longer
      rw [List.length_append, List.length_singleton] at atMost
      exact absurd atMost (Nat.not_succ_le_self _)

theorem Longest.eq_ofWord (taken : Longest text pattern lexeme rest) (shown : pattern ≠ .blanks) :
    pattern = .ofWord lexeme := by
  have solid := taken.isMatch.solid shown
  rcases Pattern.eq_ofWord_or_outranks solid taken.isMatch with same | ⟨isNumber, isWord⟩
  · exact same
  · rcases taken.preferred _ (Pattern.matches_ofWord solid) with same | ⟨isNumberToo, _⟩
    · exact same.symm
    · rw [isWord] at isNumberToo
      cases isNumberToo

end Longest

theorem words_append_of_blanks {gap : List Char} (blank : Blanks gap) (rest : List Char) :
    words (gap ++ rest) = words rest := by
  induction gap with
  | nil => rfl
  | cons c gap ih =>
      rcases List.forall_mem_cons.mp blank with ⟨here, later⟩
      rw [List.cons_append, words_cons_of_blank here, ih later]

/-- Whatever a lexer finds are the words. -/
theorem Lexes.eq_words {text : List Char} {lexemes : List (Pattern × List Char)}
    (lexes : Lexes text lexemes) :
    lexemes = (words text).map fun word => (Pattern.ofWord word, word) := by
  induction lexes with
  | done => rfl
  | skip taken _ ih => rw [taken.whole, words_append_of_blanks taken.isMatch.accepted, ih]
  | take taken shown _ ih =>
      rw [taken.whole, words_append_of_solid (taken.isMatch.solid shown) (taken.ends shown),
        List.map_cons, ← taken.eq_ofWord shown, ih]

theorem Lexes.after_blanks {gap text : List Char} {lexemes : List (Pattern × List Char)}
    (lexes : Lexes text lexemes) (blank : Blanks gap) (ends : ∀ c ∈ text.head?, isBlank c = false) :
    Lexes (gap ++ text) lexemes := by
  cases gap with
  | nil => exact lexes
  | cons c gap => exact .skip (longest_of_blanks (List.cons_ne_nil c gap) blank ends) lexes

/-- There is always a next match.  Blanks that come one by one are collected until
something else follows, since they have to be passed over at once. -/
theorem exists_lexes_after (text : List Char) :
    ∀ gap : List Char, Blanks gap → ∃ lexemes, Lexes (gap ++ text) lexemes := by
  induction text using words_induction with
  | nil =>
      intro gap blank
      exact ⟨[], Lexes.done.after_blanks blank fun c absent =>
        absurd absent (Option.not_mem_none c)⟩
  | @blank c rest separates ih =>
      intro gap blank
      rw [← List.singleton_append, ← List.append_assoc]
      apply ih
      intro d member
      rcases List.mem_append.mp member with inside | isLast
      · exact blank d inside
      · rw [List.mem_singleton.mp isLast]
        exact separates
  | @word word rest solid ends ih =>
      intro gap blank
      rcases ih [] (fun c absent => absurd absent List.not_mem_nil) with ⟨lexemes, later⟩
      rcases solid.exists_cons with ⟨c, more, isWord, notBlank⟩
      have shown : Pattern.ofWord word ≠ .blanks := by
        intro isBlanks
        have blankToo := (Pattern.matches_ofWord solid).isBlank
          (show c ∈ word by rw [isWord]; exact List.mem_cons_self)
        rw [notBlank, isBlanks] at blankToo
        cases blankToo
      refine ⟨_, (Lexes.take (longest_of_solid solid ends) shown later).after_blanks blank ?_⟩
      intro d isHead
      rw [isWord] at isHead
      cases isHead
      exact notBlank

/-- A lexer finds the words, each with its pattern, and nothing else. -/
theorem lexes_iff {text : List Char} {lexemes : List (Pattern × List Char)} :
    Lexes text lexemes ↔ lexemes = (words text).map fun word => (Pattern.ofWord word, word) := by
  constructor
  · exact Lexes.eq_words
  · intro areWords
    rcases exists_lexes_after text [] (fun c absent => absurd absent List.not_mem_nil) with
      ⟨found, lexes⟩
    rw [List.nil_append] at lexes
    rw [areWords, ← lexes.eq_words]
    exact lexes

end Token

/-! ## Layouts -/

/-- Blanks, or nothing. -/
structure Gap where
  chars : List Char
  blank : Token.Blanks chars

/-- Blanks between two words. -/
structure Separator extends Gap where
  nonempty : chars ≠ []

/-- A line as it is written: blanks only, or words with blanks between them and
around them. -/
inductive Layout
  | blank (gap : Gap)
  | filled (before : Gap) (first : Word) (others : List (Separator × Word)) (after : Gap)

namespace Layout

/-- The words of a line as it is written. -/
def words : Layout → List Word
  | .blank _ => []
  | .filled _ first others _ => first :: others.map Prod.snd

/-- Further words, each with the blanks before it, and the blanks at the end. -/
def continued (others : List (Separator × Word)) (after : Gap) : List Char :=
  others.flatMap (fun other => other.1.chars ++ other.2.text.toList) ++ after.chars

def chars : Layout → List Char
  | .blank gap => gap.chars
  | .filled before first others after =>
      before.chars ++ (first.text.toList ++ continued others after)

def line (layout : Layout) : String :=
  String.ofList layout.chars

def tokens (layout : Layout) : List Token :=
  layout.words.map fun word => ⟨word.text⟩

theorem continued_cons (other : Separator × Word) (others : List (Separator × Word)) (after : Gap) :
    continued (other :: others) after =
      other.1.chars ++ (other.2.text.toList ++ continued others after) := by
  rw [continued, List.flatMap_cons, List.append_assoc, List.append_assoc, ← continued]

theorem isBlank_of_head?_continued (others : List (Separator × Word)) (after : Gap) :
    ∀ c ∈ (continued others after).head?, Token.isBlank c = true := by
  intro c isHead
  cases others with
  | nil => exact after.blank c (List.mem_of_head? isHead)
  | cons other others =>
      rcases List.exists_cons_of_ne_nil other.1.nonempty with ⟨first, more, isGap⟩
      rw [continued_cons, isGap] at isHead
      cases isHead
      exact other.1.blank c (isGap ▸ List.mem_cons_self)

theorem words_continued (others : List (Separator × Word)) (after : Gap) :
    Token.words (continued others after) = others.map fun other => other.2.text.toList := by
  induction others with
  | nil =>
      have blanks := Token.words_append_of_blanks after.blank []
      rwa [List.append_nil] at blanks
  | cons other others ih =>
      rw [continued_cons, Token.words_append_of_blanks other.1.blank,
        Token.words_append_of_solid other.2.solid (isBlank_of_head?_continued others after), ih,
          List.map_cons]

/-- The words that a line is written with are its words, whatever the blanks. -/
theorem words_chars (layout : Layout) :
    Token.words layout.chars = layout.words.map fun word => word.text.toList := by
  cases layout with
  | blank gap =>
      have blanks := Token.words_append_of_blanks gap.blank []
      rwa [List.append_nil] at blanks
  | filled before first others after =>
      rw [chars, Token.words_append_of_blanks before.blank,
        Token.words_append_of_solid first.solid (isBlank_of_head?_continued others after),
        words_continued, words, List.map_cons, List.map_map]
      rfl

theorem scan_line (layout : Layout) : Token.scan layout.line = layout.tokens := by
  rw [Token.scan, line, String.toList_ofList, words_chars, List.map_map, tokens]
  apply List.map_congr_left
  intro word _
  rw [Function.comp_apply, String.ofList_toList]

/-- Every line is written in some way. -/
theorem exists_chars (text : List Char) : ∃ layout : Layout, layout.chars = text := by
  induction text using Token.words_induction with
  | nil => exact ⟨.blank ⟨[], List.forall_mem_nil _⟩, rfl⟩
  | @blank c rest separates ih =>
      rcases ih with ⟨gap | ⟨before, first, others, after⟩, isRest⟩
      · exact ⟨.blank ⟨c :: gap.chars, List.forall_mem_cons.mpr ⟨separates, gap.blank⟩⟩,
          congrArg (c :: ·) isRest⟩
      · exact ⟨.filled ⟨c :: before.chars, List.forall_mem_cons.mpr ⟨separates, before.blank⟩⟩ first
          others after, congrArg (c :: ·) isRest⟩
  | @word word rest solid ends ih =>
      have isWord : (String.ofList word).toList = word := String.toList_ofList
      let front : Word := ⟨String.ofList word, isWord.symm ▸ solid⟩
      let nothing : Gap := ⟨[], List.forall_mem_nil _⟩
      rcases ih with ⟨gap | ⟨before, first, others, after⟩, isRest⟩
      · refine ⟨.filled nothing front [] gap, ?_⟩
        rw [← isRest]
        exact congrArg (· ++ gap.chars) isWord
      · -- What follows the word begins with a blank, so there are blanks before the next word.
        have separated : before.chars ≠ [] := by
          intro empty
          rcases first.solid.exists_cons with ⟨c, more, isFirst, notBlank⟩
          have isHead : rest.head? = some c := by rw [← isRest, chars, empty, isFirst]; rfl
          rw [ends c isHead] at notBlank
          cases notBlank
        refine ⟨.filled nothing front ((⟨before, separated⟩, first) :: others) after, ?_⟩
        rw [← isRest, chars, continued_cons]
        exact congrArg (· ++ (before.chars ++ (first.text.toList ++ continued others after))) isWord

theorem exists_line (line : String) : ∃ layout : Layout, layout.line = line := by
  rcases exists_chars line.toList with ⟨layout, isLine⟩
  exact ⟨layout, by rw [Layout.line, isLine, String.ofList_toList]⟩

end Layout

namespace Token

/-! ## Tokens -/

theorem exists_mem_words {text : List Char} {c : Char} (member : c ∈ text)
    (notBlank : isBlank c = false) : ∃ word ∈ words text, c ∈ word := by
  induction text using words_induction with
  | nil => cases member
  | @blank blank rest separates ih =>
      rw [words_cons_of_blank separates]
      rcases List.mem_cons.mp member with isBlank | later
      · rw [← isBlank, notBlank] at separates
        cases separates
      · exact ih later
  | @word word rest solid ends ih =>
      rw [words_append_of_solid solid ends]
      rcases List.mem_append.mp member with inside | later
      · exact ⟨word, List.mem_cons_self, inside⟩
      · rcases ih later with ⟨other, isWord, inside⟩
        exact ⟨other, List.mem_cons_of_mem word isWord, inside⟩

theorem isBlank_iff {c : Char} :
    isBlank c = true ↔ c ∈ [' ', '\t', '\r', '\n', '\x0b', '\x0c'] := by
  simp only [isBlank, Bool.or_eq_true, decide_eq_true_eq, List.mem_cons, List.not_mem_nil, or_false,
    or_assoc]

theorem not_blank_of_beyond_ascii {c : Char} (beyond : 128 ≤ c.toNat) :
    c ∉ [' ', '\t', '\r', '\n', '\x0b', '\x0c'] := by
  intro blank
  simp only [List.mem_cons, List.not_mem_nil, or_false] at blank
  rcases blank with rfl | rfl | rfl | rfl | rfl | rfl <;> exact absurd beyond (by decide)

theorem isDigit_iff {c : Char} : c.isDigit = true ↔ '0' ≤ c ∧ c ≤ '9' := by
  rw [Char.isDigit, Bool.and_eq_true, decide_eq_true_eq, decide_eq_true_eq]
  rfl

theorem map_text_scan (line : String) :
    ((scan line).map fun token => token.text.toList) = words line.toList := by
  rw [scan, List.map_map]
  apply List.map_id''
  intro word
  exact String.toList_ofList

/-- A character of a line is part of a token unless it is a blank. -/
theorem exists_mem_scan_iff {line : String} {c : Char} (member : c ∈ line.toList) :
    (∃ token ∈ scan line, c ∈ token.text.toList) ↔ c ∉ [' ', '\t', '\r', '\n', '\x0b', '\x0c'] := by
  rw [← isBlank_iff, Bool.not_eq_true]
  constructor
  · rintro ⟨token, isToken, inside⟩
    exact (solid_of_mem_scan isToken).unbroken c inside
  · intro notBlank
    rcases exists_mem_words member notBlank with ⟨word, isWord, inside⟩
    rw [← map_text_scan] at isWord
    rcases List.mem_map.mp isWord with ⟨token, isToken, sameWord⟩
    exact ⟨token, isToken, sameWord ▸ inside⟩

/-- The pattern of a token tells whether it is a number. -/
theorem ofWord_of_solid {token : Token} (solid : Solid token.text.toList) :
    Pattern.ofWord token.text.toList = if token.isNumber then .number else .word := by
  unfold Pattern.ofWord
  congr 1
  rw [isNumber_iff, List.all_eq_true, and_iff_right solid.nonempty]

/-- The tokens of a line are what a lexer finds by the longest match, and they are
the runs of characters that are not blank, from left to right.  A token is a number
if and only if all its characters are the digits from 0 to 9.  The line can be
written with these words, and with no others.  Six characters are part of no token.
A character beyond ASCII, even if it looks like a space or a digit, is part of a token
that is no number. -/
theorem scan_finds_runs (line : String) :
    let tokens := scan line
    (∀ lexemes, Lexes line.toList lexemes ↔
      lexemes = tokens.map fun token =>
        (if token.isNumber then .number else .word, token.text.toList)) ∧
    (∃ runs : List (List Char × List Char),
      (runs.map fun run => run.2) = tokens.map (fun token => token.text.toList) ∧
      runs.Pairwise (fun one other => one.1.length < other.1.length) ∧
      ∀ front word, (front, word) ∈ runs ↔ ∃ back, Run line.toList front word back) ∧
    (∀ token ∈ tokens, token.isNumber = true ↔ ∀ c ∈ token.text.toList, '0' ≤ c ∧ c ≤ '9') ∧
    (∀ others, others = tokens ↔ ∃ layout : Layout, layout.line = line ∧ layout.tokens = others) ∧
    ∀ c ∈ line.toList,
      ((∃ token ∈ tokens, c ∈ token.text.toList) ↔ c ∉ [' ', '\t', '\r', '\n', '\x0b', '\x0c']) ∧
      (128 ≤ c.toNat → ∃ token ∈ tokens, c ∈ token.text.toList ∧ token.isNumber = false) := by
  intro tokens
  have areWords : (tokens.map fun token => token.text.toList) = words line.toList :=
    map_text_scan line
  have numbers : ∀ token ∈ tokens, token.isNumber = true ↔
      ∀ c ∈ token.text.toList, '0' ≤ c ∧ c ≤ '9' := by
    intro token member
    rw [isNumber_iff, and_iff_right (solid_of_mem_scan member).nonempty]
    simp only [isDigit_iff]
  refine ⟨?_, ?_, numbers, ?_, ?_⟩
  · intro lexemes
    have marked : (tokens.map fun token =>
        (if token.isNumber then Pattern.number else .word, token.text.toList)) =
          (words line.toList).map fun word => (Pattern.ofWord word, word) := by
      rw [← areWords, List.map_map]
      apply List.map_congr_left
      intro token member
      rw [Function.comp_apply, ofWord_of_solid (solid_of_mem_scan member)]
    rw [lexes_iff, marked]
  · rw [areWords]
    exact exists_runs line.toList
  · intro others
    constructor
    · intro areTokens
      rcases Layout.exists_line line with ⟨layout, isLine⟩
      exact ⟨layout, isLine, by rw [areTokens, ← layout.scan_line, isLine]⟩
    · rintro ⟨layout, isLine, areTokens⟩
      rw [← areTokens, ← layout.scan_line, isLine]
  · intro c member
    refine ⟨exists_mem_scan_iff member, ?_⟩
    intro beyond
    rcases (exists_mem_scan_iff member).mpr (not_blank_of_beyond_ascii beyond) with
      ⟨token, isToken, inside⟩
    refine ⟨token, isToken, inside, ?_⟩
    cases isNumber : token.isNumber with
    | false => rfl
    | true =>
        have atMost : c ≤ '9' := ((numbers token isToken).mp isNumber c inside).2
        exact absurd (Nat.le_trans beyond atMost) (by decide)

/-- A line with a word that begins with digits, a number with zeros in front, and a
word with a digit of another script and a space that is no blank. -/
theorem scan_finds_runs_mixed :
    let line := "\t12A 007\x0b٣5\u00a0X \r"
    let layout : Layout := .filled ⟨['\t'], by decide⟩ ⟨"12A", by decide +kernel⟩
      [(⟨⟨[' '], by decide⟩, by decide⟩, ⟨"007", by decide +kernel⟩),
        (⟨⟨['\x0b'], by decide⟩, by decide⟩, ⟨"٣5\u00a0X", by decide +kernel⟩)]
          ⟨[' ', '\r'], by decide⟩
    layout.line = line ∧ scan line = [⟨"12A"⟩, ⟨"007"⟩, ⟨"٣5\u00a0X"⟩] ∧
      Lexes line.toList
        [(.word, ['1', '2', 'A']), (.number, ['0', '0', '7']), (.word, ['٣', '5', '\u00a0', 'X'])] ∧
      (∀ c ∈ "007".toList, '0' ≤ c ∧ c ≤ '9') ∧
      '٣' ∈ line.toList ∧ ∃ token ∈ scan line, '٣' ∈ token.text.toList ∧
        token.isNumber = false := by
  intro line layout
  have isLine : layout.line = line := by decide +kernel
  rcases scan_finds_runs line with ⟨lexes, _, numbers, written, beyond⟩
  have isScan : [⟨"12A"⟩, ⟨"007"⟩, ⟨"٣5\u00a0X"⟩] = scan line :=
    (written _).mpr ⟨layout, isLine, rfl⟩
  have inside : '٣' ∈ line.toList := by decide +kernel
  have isToken : (⟨"007"⟩ : Token) ∈ scan line := by
    rw [← isScan]
    exact List.mem_cons_of_mem _ List.mem_cons_self
  refine ⟨isLine, isScan.symm, (lexes _).mpr ?_, (numbers ⟨"007"⟩ isToken).mp (by decide +kernel),
    inside, (beyond '٣' inside).2 (by decide)⟩
  rw [← isScan]
  decide +kernel

end Token
end FirstPass
