import FirstPass.SymbolTable
import Mathlib.Data.List.Nodup

namespace FirstPass
namespace SymbolTable

/-!
Sound symbol tables.

A table keeps its names twice: in the order of appearance, and in the lexicon
of the values.  A table is sound if the two agree and no name appears twice.
Both operations on tables admit one name: the name is in the table
afterwards, at its old place or at the end, and the others stay as they are.
Everything about places and numbers of symbols follows from that.
-/

/-- The order of appearance has every name that has a value, once. -/
structure Sound (table : SymbolTable) : Prop where
  nodup : table.order.Nodup
  mem_order_iff : ∀ name, name ∈ table.order ↔ (table.find? name).isSome = true

/-- What an operation for one name does to a table. -/
structure Admits (before : SymbolTable) (name : String) (after : SymbolTable) : Prop where
  order : after.order = if (before.find? name).isSome then before.order else before.order ++ [name]
  present : (after.find? name).isSome = true
  others : ∀ other, other ≠ name → after.find? other = before.find? other

theorem admits_insertIfNew (table : SymbolTable) (name : String) (value : Symbol.Value) :
    Admits table name (table.insertIfNew name value).2 where
  order := table.order_insertIfNew name value
  present := by rw [find?_insertIfNew, if_pos rfl, Option.isSome_some]
  others := by
    intro other different
    rw [find?_insertIfNew, if_neg different]

theorem admits_assign (table : SymbolTable) (name : String) (value : Symbol.Value) :
    Admits table name (table.assign name value).2 where
  order := table.order_assign name value
  present := by rw [find?_assign, if_pos rfl, Option.isSome_some]
  others := by
    intro other different
    rw [find?_assign, if_neg different]

/-! ## Names and places -/

theorem sound_empty : Sound ∅ where
  nodup := List.nodup_nil
  mem_order_iff := by
    intro name
    constructor
    · intro member
      cases member
    · intro found
      cases found

theorem Sound.not_mem_order {table : SymbolTable} (sound : table.Sound) {name : String}
    (absent : table.find? name = none) : name ∉ table.order := by
  intro member
  have found := (sound.mem_order_iff name).mp member
  rw [absent] at found
  cases found

theorem Admits.sound {before after : SymbolTable} {name : String}
    (admits : Admits before name after) (sound : before.Sound) : after.Sound := by
  cases found : before.find? name with
  | some value =>
      have same : after.order = before.order := by rw [admits.order, found]; rfl
      refine ⟨same ▸ sound.nodup, ?_⟩
      intro other
      rw [same, sound.mem_order_iff]
      by_cases equal : other = name
      · subst equal
        rw [found, admits.present, Option.isSome_some]
      · rw [admits.others other equal]
  | none =>
      have longer : after.order = before.order ++ [name] := by rw [admits.order, found]; rfl
      have fresh := sound.not_mem_order found
      refine ⟨?_, ?_⟩
      · rw [longer]
        exact List.nodup_append.mpr ⟨sound.nodup, List.nodup_singleton name, by
          intro old member new isName equal
          rw [List.mem_singleton.mp isName] at equal
          exact fresh (equal ▸ member)⟩
      · intro other
        rw [longer, List.mem_append, List.mem_singleton]
        by_cases equal : other = name
        · subst equal
          exact ⟨fun _ => admits.present, fun _ => Or.inr rfl⟩
        · rw [admits.others other equal, sound.mem_order_iff]
          exact ⟨fun member => member.resolve_right equal, Or.inl⟩

/-- No symbol loses its place. -/
theorem Admits.order_grows {before after : SymbolTable} {name : String}
    (admits : Admits before name after) : before.order <+: after.order := by
  rw [admits.order]
  split
  · exact List.prefix_refl _
  · exact List.prefix_append _ _

/-- A name keeps its place when the order only grows at the end. -/
theorem place_of_grows {before after : List String} (grows : before <+: after) {place : Nat}
    {name : String} (here : before[place]? = some name) : after[place]? = some name := by
  rcases List.getElem?_eq_some_iff.mp here with ⟨bound, _⟩
  rcases grows with ⟨added, same⟩
  rw [← same, List.getElem?_append_left bound, here]

/-- If a table has the names of a list in the order of their first
appearance, then it still has them so with the admitted name at the end of
the list. -/
theorem Admits.order_eq_eraseDups {before after : SymbolTable} {name : String}
    (admits : Admits before name after) (sound : before.Sound) {seen : List String}
    (ordered : before.order = seen.eraseDups) : after.order = (seen ++ [name]).eraseDups := by
  have known : name ∈ seen ↔ (before.find? name).isSome = true := by
    rw [← sound.mem_order_iff, ordered, List.mem_eraseDups]
  rw [admits.order, List.eraseDups_append, ← ordered]
  by_cases member : name ∈ seen
  · rw [if_pos (known.mp member)]
    simp [List.cons_removeAll, member]
  · rw [if_neg (fun found => member (known.mpr found))]
    simp [List.cons_removeAll, member, List.eraseDups_cons]

/-- In a sound table the place of a name is the only one where it stands. -/
theorem Sound.index?_eq_some_iff {table : SymbolTable} (sound : table.Sound) {name : String}
    {place : Nat} : table.index? name = some place ↔ table.order[place]? = some name := by
  unfold index?
  rw [List.idxOf?_eq_some_iff, List.getElem?_eq_some_iff]
  constructor
  · rintro ⟨bound, here, _⟩
    exact ⟨bound, here⟩
  · rintro ⟨bound, here⟩
    refine ⟨bound, here, ?_⟩
    intro earlier less same
    have equal := (sound.nodup.getElem_inj_iff).mp (same.trans here.symm)
    omega

theorem Sound.index?_eq_none_iff {table : SymbolTable} (sound : table.Sound) {name : String} :
    table.index? name = none ↔ table.find? name = none := by
  unfold index?
  rw [List.idxOf?_eq_none_iff, sound.mem_order_iff]
  cases table.find? name <;> simp

theorem find?_of_mem_toList {table : SymbolTable} {name : String} {value : Symbol.Value}
    (member : (name, value) ∈ table.toList) : table.find? name = some value := by
  rcases List.mem_filterMap.mp member with ⟨listed, _, entry⟩
  rcases Option.map_eq_some_iff.mp entry with ⟨found, isValue, same⟩
  cases same
  exact isValue

theorem Sound.mem_toList {table : SymbolTable} (sound : table.Sound) {name : String}
    {value : Symbol.Value} (found : table.find? name = some value) :
    (name, value) ∈ table.toList := by
  apply List.mem_filterMap.mpr
  refine ⟨name, (sound.mem_order_iff name).mpr ?_, ?_⟩
  · rw [found]
    rfl
  · rw [found]
    rfl

/-- The symbols of a sound table are listed in the order of appearance, and
none is left out. -/
theorem Sound.map_fst_toList {table : SymbolTable} (sound : table.Sound) :
    table.toList.map Prod.fst = table.order := by
  have kept : ∀ name ∈ table.order,
      ((table.find? name).map fun value => (name, value)).map Prod.fst = some name := by
    intro name member
    rcases Option.isSome_iff_exists.mp ((sound.mem_order_iff name).mp member) with ⟨value, found⟩
    rw [found]
    rfl
  unfold toList
  rw [List.map_filterMap, List.filterMap_congr kept, List.filterMap_some]

end SymbolTable
end FirstPass
