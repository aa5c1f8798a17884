import FirstPass.Proofs.Lexicon
import FirstPass.Proofs.SymbolTable

namespace FirstPass

/-!
Symbol tables as association lists.

A symbol table keeps the names in order of appearance and, apart from them, a
lexicon of the values.  Seen from outside it is a single list of names with
their values in which no name stands twice.  A new name comes last, and a new
value stands where the old one stood.

The same changes give the same answers on a table and on such a list, and
nothing that can be asked of the table afterwards tells it from the list.
-/

/-- Names with their values, no name twice. -/
structure Association where
  entries : List (String × Symbol.Value)
  nodup : (entries.map Prod.fst).Nodup

namespace Association

def empty : Association :=
  ⟨[], List.nodup_nil⟩

def names (list : Association) : List String :=
  list.entries.map Prod.fst

def find? (list : Association) (name : String) : Option Symbol.Value :=
  list.entries.lookup name

def index? (list : Association) (name : String) : Option Nat :=
  list.entries.findIdx? fun entry => entry.1 == name

/-- Put a new name at the end. -/
def append (list : Association) (name : String) (value : Symbol.Value) (fresh : name ∉ list.names) :
    Association where
  entries := list.entries ++ [(name, value)]
  nodup := by
    rw [List.map_append]
    refine List.nodup_append.mpr ⟨list.nodup, List.nodup_singleton name, ?_⟩
    intro old member new isName same
    have equal : old = name := same.trans (List.mem_singleton.mp isName)
    exact fresh (equal ▸ member)

/-- The entry with a new value, if it is the one of the name. -/
def revise (name : String) (value : Symbol.Value) (entry : String × Symbol.Value) :
    String × Symbol.Value :=
  if entry.1 = name then (name, value) else entry

theorem fst_revise (name : String) (value : Symbol.Value) (entry : String × Symbol.Value) :
    (revise name value entry).1 = entry.1 := by
  unfold revise
  split
  · rename_i same
    exact same.symm
  · rfl

theorem map_fst_revise (name : String) (value : Symbol.Value)
    (entries : List (String × Symbol.Value)) :
    (entries.map (revise name value)).map Prod.fst = entries.map Prod.fst := by
  rw [List.map_map]
  exact List.map_congr_left fun entry _ => fst_revise name value entry

/-- Give a name a new value where it stands. -/
def replace (list : Association) (name : String) (value : Symbol.Value) : Association where
  entries := list.entries.map (revise name value)
  nodup := by
    rw [map_fst_revise]
    exact list.nodup

/-- Append a name unless it is present, and say whether it was appended. -/
def insertIfNew (list : Association) (name : String) (value : Symbol.Value) : Bool × Association :=
  if fresh : name ∉ list.names then (true, list.append name value fresh) else (false, list)

/-- Replace the value of a name, or append the name, and return the value that
it had before. -/
def assign (list : Association) (name : String) (value : Symbol.Value) :
    Option Symbol.Value × Association :=
  if fresh : name ∉ list.names then (none, list.append name value fresh)
  else (list.find? name, list.replace name value)

/-- The names and values as text, one line each. -/
def text (list : Association) : String :=
  String.join (list.entries.map fun entry =>
    "label: " ++ entry.1 ++ ", Address: " ++ entry.2.text ++ "\n")

theorem isSome_find?_iff {list : Association} {name : String} :
    (list.find? name).isSome = true ↔ name ∈ list.names :=
  Lexicon.isSome_lookup_iff

theorem find?_append (list : Association) {name : String} (value : Symbol.Value)
    (fresh : name ∉ list.names) (other : String) :
    (list.append name value fresh).find? other =
      if other = name then some value else list.find? other := by
  unfold append find?
  rw [List.lookup_append, Lexicon.lookup_cons, List.lookup_nil]
  by_cases same : other = name
  · have absent : list.entries.lookup name = none := by
      rw [← Option.not_isSome_iff_eq_none]
      exact fun present => fresh (isSome_find?_iff.mp present)
    rw [same, absent, Option.none_or]
  · rw [if_neg same, if_neg same, Option.or_none]

theorem lookup_map_revise (name : String) (value : Symbol.Value)
    (entries : List (String × Symbol.Value)) (other : String) :
    (entries.map (revise name value)).lookup other =
      (entries.lookup other).map fun before => if other = name then value else before := by
  induction entries with
  | nil => rfl
  | cons entry rest ih =>
      rcases entry with ⟨first, before⟩
      by_cases here : other = first
      · subst here
        by_cases same : other = name <;> simp [revise, same]
      · rw [List.map_cons, ← Prod.eta (revise name value (first, before)), fst_revise,
          Lexicon.lookup_cons, Lexicon.lookup_cons, if_neg here, if_neg here, ih]

theorem find?_replace {list : Association} {name : String} (present : name ∈ list.names)
    (value : Symbol.Value) (other : String) :
    (list.replace name value).find? other =
      if other = name then some value else list.find? other := by
  unfold replace find?
  rw [lookup_map_revise]
  by_cases same : other = name
  · subst same
    rcases Option.isSome_iff_exists.mp (isSome_find?_iff.mpr present) with ⟨before, found⟩
    change list.entries.lookup other = some before at found
    simp only [found, Option.map_some, if_true]
  · simp only [same, if_false, Option.map_id']

end Association

/-! ## Changes and their answers -/

/-- What can be done to a table. -/
inductive Change
  | insertIfNew (name : String) (value : Symbol.Value)
  | assign (name : String) (value : Symbol.Value)
deriving DecidableEq, Repr

/-- What a change returns: whether the name is new, or the value before. -/
inductive Answer
  | added (new : Bool)
  | replaced (before : Option Symbol.Value)
deriving DecidableEq, Repr

def SymbolTable.change (table : SymbolTable) : Change → Answer × SymbolTable
  | .insertIfNew name value => Prod.map .added id (table.insertIfNew name value)
  | .assign name value => Prod.map .replaced id (table.assign name value)

def Association.change (list : Association) : Change → Answer × Association
  | .insertIfNew name value => Prod.map .added id (list.insertIfNew name value)
  | .assign name value => Prod.map .replaced id (list.assign name value)

/-- Make changes one after the other, and collect their answers. -/
def Change.makeAll {Store : Type} (change : Store → Change → Answer × Store) (store : Store) :
    List Change → List Answer × Store
  | [] => ([], store)
  | first :: rest =>
      let (answer, next) := change store first
      let (answers, last) := makeAll change next rest
      (answer :: answers, last)

theorem Change.makeAll_append {Store : Type} (change : Store → Change → Answer × Store)
    (store : Store) (first second : List Change) :
    (makeAll change store (first ++ second)).2 =
      (makeAll change (makeAll change store first).2 second).2 := by
  induction first generalizing store with
  | nil => rfl
  | cons here rest ih => exact ih _

/-! ## The list behind a table -/

namespace SymbolTable

/-- A table stands for a list: the same names in the same order with the same
values. -/
structure Represents (table : SymbolTable) (list : Association) : Prop where
  order : table.order = list.names
  values : ∀ name, table.find? name = list.find? name
  ordered : table.values.Ordered

theorem represents_empty : Represents ∅ .empty where
  order := rfl
  values := fun _ => rfl
  ordered := Lexicon.ordered_empty

namespace Represents

variable {table : SymbolTable} {list : Association}

theorem push (represents : table.Represents list) {name : String} (fresh : name ∉ list.names)
    (value : Symbol.Value) : (table.push name value).Represents (list.append name value fresh) where
  order := by
    change table.order ++ [name] = (list.entries ++ [(name, value)]).map Prod.fst
    rw [represents.order, List.map_append]
    rfl
  values := by
    intro other
    rw [find?_push, Association.find?_append, represents.values]
  ordered := represents.ordered.insert name value

/-- Both changes look the name up first, and the table finds it exactly if the
list has it. -/
theorem find?_cases (represents : table.Represents list) (name : String) :
    (name ∉ list.names ∧ table.find? name = none) ∨
      ∃ before, name ∈ list.names ∧ table.find? name = some before := by
  cases found : table.find? name with
  | none =>
      refine Or.inl ⟨?_, rfl⟩
      rw [← Association.isSome_find?_iff, ← represents.values, found]
      exact Bool.false_ne_true
  | some before =>
      refine Or.inr ⟨before, ?_, rfl⟩
      rw [← Association.isSome_find?_iff, ← represents.values, found]
      rfl

theorem insertIfNew (represents : table.Represents list) (name : String) (value : Symbol.Value) :
    (table.insertIfNew name value).1 = (list.insertIfNew name value).1 ∧
      (table.insertIfNew name value).2.Represents (list.insertIfNew name value).2 := by
  rcases represents.find?_cases name with ⟨fresh, found⟩ | ⟨before, present, found⟩
  · simp only [SymbolTable.insertIfNew, found, Association.insertIfNew, dif_pos fresh, true_and]
    exact represents.push fresh value
  · simp only [SymbolTable.insertIfNew, found, Association.insertIfNew,
      dif_neg (not_not_intro present), true_and]
    exact represents

theorem assign (represents : table.Represents list) (name : String) (value : Symbol.Value) :
    (table.assign name value).1 = (list.assign name value).1 ∧
      (table.assign name value).2.Represents (list.assign name value).2 := by
  rcases represents.find?_cases name with ⟨fresh, found⟩ | ⟨before, present, found⟩
  · simp only [SymbolTable.assign, found, Association.assign, dif_pos fresh, true_and]
    exact represents.push fresh value
  · simp only [SymbolTable.assign, found, Association.assign, dif_neg (not_not_intro present)]
    refine ⟨found.symm.trans (represents.values name), ?_, ?_, represents.ordered.insert name value⟩
    · exact represents.order.trans (Association.map_fst_revise name value list.entries).symm
    · intro other
      rw [Association.find?_replace present, ← represents.values]
      exact Lexicon.find?_insert table.values name value other

/-- One change gives the same answer on both sides, and the table stands for
the list again. -/
theorem change (represents : table.Represents list) (change : Change) :
    (table.change change).1 = (list.change change).1 ∧
      (table.change change).2.Represents (list.change change).2 := by
  cases change with
  | insertIfNew name value =>
      rcases represents.insertIfNew name value with ⟨answer, kept⟩
      exact ⟨congrArg Answer.added answer, kept⟩
  | assign name value =>
      rcases represents.assign name value with ⟨answer, kept⟩
      exact ⟨congrArg Answer.replaced answer, kept⟩

theorem makeAll (represents : table.Represents list) (changes : List Change) :
    (Change.makeAll SymbolTable.change table changes).1 =
        (Change.makeAll Association.change list changes).1 ∧
      (Change.makeAll SymbolTable.change table changes).2.Represents
        (Change.makeAll Association.change list changes).2 := by
  induction changes generalizing table list with
  | nil => exact ⟨rfl, represents⟩
  | cons first rest ih =>
      rcases represents.change first with ⟨answer, kept⟩
      rcases ih kept with ⟨answers, last⟩
      exact ⟨congrArg₂ List.cons answer answers, last⟩

/-! ## What can be asked of a table -/

theorem sound (represents : table.Represents list) : table.Sound where
  nodup := by
    rw [represents.order]
    exact list.nodup
  mem_order_iff := by
    intro name
    rw [represents.order, represents.values, Association.isSome_find?_iff]

/-- The names of the order are the words of the lexicon. -/
theorem perm_words (represents : table.Represents list) :
    table.order.Perm (table.values.toList.map Prod.fst) := by
  apply (List.perm_ext_iff_of_nodup represents.sound.nodup represents.ordered.nodup).mpr
  intro name
  rw [represents.sound.mem_order_iff]
  exact Lexicon.isSome_lookup_iff

theorem index?_eq (represents : table.Represents list) (name : String) :
    table.index? name = list.index? name := by
  unfold SymbolTable.index? Association.index? List.idxOf?
  rw [represents.order, Association.names, List.findIdx?_map]
  rfl

/-- No symbol is left out when the table is listed. -/
theorem toList_eq (represents : table.Represents list) : table.toList = list.entries := by
  unfold SymbolTable.toList
  rw [represents.order, Association.names, List.filterMap_map]
  have kept : ∀ entry ∈ list.entries,
      (table.find? entry.1).map (fun value => (entry.1, value)) = some entry := by
    intro entry member
    rw [represents.values, Association.find?,
      (Lexicon.lookup_eq_some_iff_mem list.nodup).mpr member]
    rfl
  exact (List.filterMap_congr kept).trans List.filterMap_some

end Represents

/-- Every question to a table has the answer that the list gives. -/
structure Shows (table : SymbolTable) (list : Association) : Prop where
  find? : ∀ name, table.find? name = list.find? name
  index? : ∀ name, table.index? name = list.index? name
  size : table.size = list.entries.length
  isEmpty : table.isEmpty = list.entries.isEmpty
  toList : table.toList = list.entries
  text : table.text = list.text

theorem Represents.shows {table : SymbolTable} {list : Association}
    (represents : table.Represents list) : table.Shows list where
  find? := represents.values
  index? := represents.index?_eq
  size := by rw [SymbolTable.size, represents.order, Association.names, List.length_map]
  isEmpty := by rw [SymbolTable.isEmpty, represents.order, Association.names, List.isEmpty_map]
  toList := represents.toList_eq
  text := by
    unfold SymbolTable.text SymbolTable.lines Text.unlines Association.text
    rw [represents.toList_eq, List.map_map]
    rfl

theorem order_grows_makeAll (table : SymbolTable) (changes : List Change) :
    table.order <+: (Change.makeAll SymbolTable.change table changes).2.order := by
  induction changes generalizing table with
  | nil => exact List.prefix_refl _
  | cons first rest ih =>
      have grows : table.order <+: (table.change first).2.order := by
        cases first with
        | insertIfNew name value => exact (table.admits_insertIfNew name value).order_grows
        | assign name value => exact (table.admits_assign name value).order_grows
      exact grows.trans (ih _)

end SymbolTable

/-- A symbol table is a list of names with values, as far as anyone can see.
Whatever changes are made to a new table, they return what they return on the
list, and afterwards every question has the list's answer.  The names in order
of appearance are all different, and they are the words of the lexicon; so a
name has a value exactly if it has a place, listing the table leaves nothing
out, and no later change moves a name. -/
theorem table_refines_association (changes : List Change) :
    let made := Change.makeAll SymbolTable.change ∅ changes
    let model := Change.makeAll Association.change .empty changes
    made.1 = model.1 ∧ made.2.Shows model.2 ∧
    made.2.order.Nodup ∧ made.2.order.Perm (made.2.values.toList.map Prod.fst) ∧
    (∀ name, (made.2.find? name).isSome = (made.2.index? name).isSome) ∧
    made.2.toList.map Prod.fst = made.2.order ∧ made.2.toList.length = made.2.size ∧
    ∀ later name place, made.2.index? name = some place →
      (Change.makeAll SymbolTable.change ∅ (changes ++ later)).2.index? name = some place := by
  intro made model
  have represents := SymbolTable.represents_empty.makeAll changes
  have sound : made.2.Sound := represents.2.sound
  refine ⟨represents.1, represents.2.shows, sound.nodup, represents.2.perm_words, ?_,
    sound.map_fst_toList, ?_, ?_⟩
  · intro name
    have absent : made.2.index? name = none ↔ made.2.find? name = none := sound.index?_eq_none_iff
    rw [Bool.eq_iff_iff, Option.isSome_iff_ne_none, Option.isSome_iff_ne_none, ne_eq, ne_eq, absent]
  · rw [represents.2.toList_eq, represents.2.shows.size]
  · intro later name place placed
    have laterSound : (Change.makeAll SymbolTable.change ∅ (changes ++ later)).2.Sound :=
      (SymbolTable.represents_empty.makeAll (changes ++ later)).2.sound
    rw [laterSound.index?_eq_some_iff, Change.makeAll_append]
    apply SymbolTable.place_of_grows (made.2.order_grows_makeAll later)
    exact sound.index?_eq_some_iff.mp placed

/-- `B` is used before `A` is defined, and is then given a value twice. -/
theorem table_refines_association_redefined :
    let changes : List Change := [.insertIfNew "B" .unresolved, .assign "A" .unplaced,
      .assign "B" (.address ⟨101, by decide⟩), .insertIfNew "A" .unresolved]
    (Change.makeAll SymbolTable.change ∅ changes).1 =
      [.added true, .replaced none, .replaced (some .unresolved), .added false] ∧
    (Change.makeAll SymbolTable.change ∅ changes).2.text =
      "label: B, Address: 101\nlabel: A, Address: unplaced\n" ∧
    (Change.makeAll SymbolTable.change ∅ (changes ++ [.assign "B" .unplaced])).2.index? "B" =
      some 0 := by
  intro changes
  have refines := table_refines_association changes
  refine ⟨?_, ?_, ?_⟩
  · rw [refines.1]
    decide +kernel
  · rw [refines.2.1.text]
    decide +kernel
  · exact refines.2.2.2.2.2.2.2 [.assign "B" .unplaced] "B" 0 (by decide +kernel)

end FirstPass
