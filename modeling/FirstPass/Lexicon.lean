namespace FirstPass

/-!
Lexicons: words with one meaning each, in alphabetical order.

The alphabetical order is that of code points.  Because a word is always
inserted at its place, the order in which words were defined leaves no trace,
and two lexicons with the same words and meanings are equal.
-/

structure Lexicon (Meaning : Type) where
  entries : List (String × Meaning) := []
deriving DecidableEq, Repr

namespace Lexicon

variable {Meaning : Type}

def empty : Lexicon Meaning := {}

instance : EmptyCollection (Lexicon Meaning) :=
  ⟨empty⟩

/-- The meaning of a word. -/
def find? (lexicon : Lexicon Meaning) (word : String) : Option Meaning :=
  lexicon.entries.lookup word

/-- Put a word at its alphabetical place, replacing an earlier meaning. -/
def insertEntry (word : String) (meaning : Meaning) :
    List (String × Meaning) → List (String × Meaning)
  | [] => [(word, meaning)]
  | entry :: entries =>
      if word = entry.1 then (word, meaning) :: entries
      else if word < entry.1 then (word, meaning) :: entry :: entries
      else entry :: insertEntry word meaning entries

/-- Give a word a meaning, replacing an earlier one. -/
def insert (lexicon : Lexicon Meaning) (word : String) (meaning : Meaning) : Lexicon Meaning :=
  ⟨insertEntry word meaning lexicon.entries⟩

/-- The words with their meanings, in alphabetical order. -/
def toList (lexicon : Lexicon Meaning) : List (String × Meaning) :=
  lexicon.entries

/-- The lexicon of a list of definitions; later definitions replace earlier
ones. -/
def ofList (definitions : List (String × Meaning)) : Lexicon Meaning :=
  definitions.foldl (fun lexicon entry => lexicon.insert entry.1 entry.2) empty

theorem lookup_cons (word : String) (meaning : Meaning) (entries : List (String × Meaning))
    (other : String) :
    ((word, meaning) :: entries).lookup other =
      if other = word then some meaning else entries.lookup other := by
  by_cases same : other = word
  · simp [same]
  · have different : (other == word) = false := beq_eq_false_iff_ne.mpr same
    simp only [List.lookup_cons, different, same, if_false]

theorem lookup_insertEntry (word : String) (meaning : Meaning) (entries : List (String × Meaning))
    (other : String) :
    (insertEntry word meaning entries).lookup other =
      if other = word then some meaning else entries.lookup other := by
  induction entries with
  | nil => rw [insertEntry, lookup_cons]
  | cons entry entries ih =>
      obtain ⟨present, old⟩ := entry
      by_cases same : word = present
      · subst same
        by_cases found : other = word <;> simp [insertEntry, lookup_cons, found]
      · by_cases before : word < present
        · simp only [insertEntry, same, before, if_false, if_true, lookup_cons]
        · by_cases found : other = present
          · subst found
            have different : other ≠ word := fun equal => same equal.symm
            simp [insertEntry, same, before, different]
          · simp [insertEntry, same, before, lookup_cons, ih, found]

/-- After an insertion the word has its new meaning, and every other word the
meaning it had. -/
theorem find?_insert (lexicon : Lexicon Meaning) (word : String) (meaning : Meaning)
    (other : String) :
    (lexicon.insert word meaning).find? other =
      if other = word then some meaning else lexicon.find? other :=
  lookup_insertEntry word meaning lexicon.entries other

end Lexicon
end FirstPass
