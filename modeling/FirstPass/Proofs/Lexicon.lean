import FirstPass.Lexicon
import Mathlib.Data.List.Induction
import Mathlib.Data.List.Nodup

namespace FirstPass
namespace Lexicon

/-!
Lexicons in alphabetical order.

A lexicon that is built by insertions has its words in strictly alphabetical
order.  Such a lexicon has no word twice and is determined by the meanings of
its words: it does not show in which order they were inserted.
-/

variable {Meaning : Type}

/-- In a list without a word twice, the meaning of a word is the one that
stands beside it. -/
theorem lookup_eq_some_iff_mem {entries : List (String × Meaning)}
    (nodup : (entries.map Prod.fst).Nodup) {word : String} {meaning : Meaning} :
    entries.lookup word = some meaning ↔ (word, meaning) ∈ entries := by
  induction entries with
  | nil => simp
  | cons entry rest ih =>
      rcases entry with ⟨first, given⟩
      rcases List.nodup_cons.mp nodup with ⟨fresh, nodupRest⟩
      rw [lookup_cons, List.mem_cons, Prod.mk.injEq]
      by_cases same : word = first
      · subst same
        have notLater : (word, meaning) ∉ rest :=
          fun member => fresh (List.mem_map.mpr ⟨_, member, rfl⟩)
        simp [notLater, eq_comm]
      · simp [same, ih nodupRest]

theorem isSome_lookup_iff {entries : List (String × Meaning)} {word : String} :
    (entries.lookup word).isSome = true ↔ word ∈ entries.map Prod.fst := by
  rw [List.lookup_isSome_iff, List.mem_map]
  constructor
  · rintro ⟨entry, member, same⟩
    exact ⟨entry, member, (eq_of_beq same).symm⟩
  · rintro ⟨entry, member, same⟩
    exact ⟨entry, member, beq_iff_eq.mpr same.symm⟩

/-- The words stand in strictly alphabetical order. -/
def Ordered (lexicon : Lexicon Meaning) : Prop :=
  lexicon.entries.Pairwise fun one other => one.1 < other.1

theorem ordered_empty : (∅ : Lexicon Meaning).Ordered :=
  List.Pairwise.nil

theorem mem_insertEntry {word : String} {meaning : Meaning} {entries : List (String × Meaning)}
    {entry : String × Meaning} (member : entry ∈ insertEntry word meaning entries) :
    entry = (word, meaning) ∨ entry ∈ entries := by
  induction entries with
  | nil => exact Or.inl (List.mem_singleton.mp member)
  | cons first rest ih =>
      rw [insertEntry] at member
      split at member
      · rcases List.mem_cons.mp member with new | old
        · exact Or.inl new
        · exact Or.inr (List.mem_cons_of_mem first old)
      · split at member
        · exact List.mem_cons.mp member
        · rcases List.mem_cons.mp member with here | later
          · exact Or.inr (List.mem_cons.mpr (Or.inl here))
          · rcases ih later with new | old
            · exact Or.inl new
            · exact Or.inr (List.mem_cons_of_mem first old)

/-- A word is inserted at its alphabetical place. -/
theorem Ordered.insert {lexicon : Lexicon Meaning} (ordered : lexicon.Ordered) (word : String)
    (meaning : Meaning) : (lexicon.insert word meaning).Ordered := by
  rcases lexicon with ⟨entries⟩
  change (insertEntry word meaning entries).Pairwise _
  induction entries with
  | nil => exact List.pairwise_singleton _ _
  | cons first rest ih =>
      rcases List.pairwise_cons.mp ordered with ⟨below, orderedRest⟩
      rw [insertEntry]
      split
      · rename_i same
        exact List.pairwise_cons.mpr ⟨fun entry member => same ▸ below entry member, orderedRest⟩
      · rename_i different
        split
        · rename_i before
          refine List.pairwise_cons.mpr ⟨?_, ordered⟩
          intro entry member
          rcases List.mem_cons.mp member with here | later
          · rw [here]
            exact before
          · exact String.lt_trans before (below entry later)
        · rename_i notBefore
          have after : first.1 < word := by
            by_contra notAfter
            exact different
              (String.le_antisymm (String.not_lt.mp notAfter) (String.not_lt.mp notBefore))
          refine List.pairwise_cons.mpr ⟨?_, ih orderedRest⟩
          intro entry member
          rcases mem_insertEntry member with new | old
          · rw [new]
            exact after
          · exact below entry old

theorem Ordered.nodup {lexicon : Lexicon Meaning} (ordered : lexicon.Ordered) :
    (lexicon.toList.map Prod.fst).Nodup := by
  refine List.pairwise_map.mpr (ordered.imp ?_)
  intro one other before same
  rw [same] at before
  exact String.lt_irrefl _ before

theorem Ordered.find?_eq_some_iff {lexicon : Lexicon Meaning} (ordered : lexicon.Ordered)
    {word : String} {meaning : Meaning} :
    lexicon.find? word = some meaning ↔ (word, meaning) ∈ lexicon.toList :=
  lookup_eq_some_iff_mem ordered.nodup

/-- Two lexicons in which every word has the same meaning are equal. -/
theorem Ordered.ext {one other : Lexicon Meaning} (first : one.Ordered) (second : other.Ordered)
    (same : ∀ word, one.find? word = other.find? word) : one = other := by
  have members : ∀ entry, entry ∈ one.entries ↔ entry ∈ other.entries := by
    rintro ⟨word, meaning⟩
    exact first.find?_eq_some_iff.symm.trans (same word ▸ second.find?_eq_some_iff)
  have permuted : one.entries.Perm other.entries :=
    (List.perm_ext_iff_of_nodup first.nodup.of_map second.nodup.of_map).mpr members
  have equal : one.entries = other.entries := by
    refine List.Perm.eq_of_pairwise ?_ first second permuted
    intro here there _ _ before after
    exact absurd after (String.lt_asymm before)
  exact congrArg Lexicon.mk equal

/-! ## Lexicons of definitions -/

theorem ordered_ofList (definitions : List (String × Meaning)) : (ofList definitions).Ordered := by
  unfold ofList
  refine List.foldlRecOn definitions _ ordered_empty ?_
  intro lexicon ordered entry _
  exact ordered.insert entry.1 entry.2

/-- Among the definitions of a word the last one counts. -/
theorem find?_ofList (definitions : List (String × Meaning)) (word : String) :
    (ofList definitions).find? word = definitions.reverse.lookup word := by
  induction definitions using List.reverseRecOn with
  | nil => rfl
  | append_singleton earlier last ih =>
      unfold ofList at *
      rw [List.foldl_append, List.reverse_append]
      simp only [List.foldl_cons, List.foldl_nil, List.reverse_singleton, List.singleton_append]
      rw [find?_insert, lookup_cons, ih]

/-- Definitions of different words all count. -/
theorem find?_ofList_eq_some_iff {definitions : List (String × Meaning)}
    (nodup : (definitions.map Prod.fst).Nodup) {word : String} {meaning : Meaning} :
    (ofList definitions).find? word = some meaning ↔ (word, meaning) ∈ definitions := by
  have reversed : (definitions.reverse.map Prod.fst).Nodup := by
    rw [List.map_reverse, List.nodup_reverse]
    exact nodup
  rw [find?_ofList, lookup_eq_some_iff_mem reversed, List.mem_reverse]

end Lexicon
end FirstPass
