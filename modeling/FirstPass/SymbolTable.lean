import FirstPass.Lexicon
import FirstPass.Symbol
import FirstPass.Text.Lines

namespace FirstPass

/-!
The symbol table.

Symbols are numbered by first appearance, and intermediate code refers to
them by that number; so a table keeps the names in order of appearance, and
beside them a lexicon of the values.  A symbol that gets a new value keeps
its place.
-/

structure SymbolTable where
  order : List String := []
  values : Lexicon Symbol.Value := ∅
deriving DecidableEq, Repr

namespace SymbolTable

def empty : SymbolTable := {}

instance : EmptyCollection SymbolTable :=
  ⟨empty⟩

def size (table : SymbolTable) : Nat :=
  table.order.length

def isEmpty (table : SymbolTable) : Bool :=
  table.order.isEmpty

/-- The value of a symbol. -/
def find? (table : SymbolTable) (name : String) : Option Symbol.Value :=
  table.values.find? name

/-- The place of a symbol in the order of appearance, from zero. -/
def index? (table : SymbolTable) (name : String) : Option Nat :=
  table.order.idxOf? name

/-- Add a symbol at the end. -/
def push (table : SymbolTable) (name : String) (value : Symbol.Value) : SymbolTable :=
  ⟨table.order ++ [name], table.values.insert name value⟩

/-- Add a symbol unless it is present, and say whether it was added. -/
def insertIfNew (table : SymbolTable) (name : String) (value : Symbol.Value) : Bool × SymbolTable :=
  match table.find? name with
  | some _ => (false, table)
  | none => (true, table.push name value)

/-- Give a symbol a value, adding the symbol if needed, and return the value
that it had before. -/
def assign (table : SymbolTable) (name : String) (value : Symbol.Value) :
    Option Symbol.Value × SymbolTable :=
  match table.find? name with
  | some before => (some before, { table with values := table.values.insert name value })
  | none => (none, table.push name value)

/-- The symbols with their values, in order of appearance. -/
def toList (table : SymbolTable) : List (String × Symbol.Value) :=
  table.order.filterMap fun name => (table.find? name).map fun value => (name, value)

/-- The line that shows one symbol. -/
def entryText (entry : String × Symbol.Value) : String :=
  "label: " ++ entry.1 ++ ", Address: " ++ entry.2.text

/-- The lines that show the table. -/
def lines (table : SymbolTable) : List String :=
  table.toList.map entryText

def text (table : SymbolTable) : String :=
  Text.unlines table.lines

/-! ## What the operations do to the values and to the order -/

theorem find?_push (table : SymbolTable) (name : String) (value : Symbol.Value) (other : String) :
    (table.push name value).find? other = if other = name then some value else table.find? other :=
  table.values.find?_insert name value other

/-- An insertion gives a value only to a symbol that had none. -/
theorem find?_insertIfNew (table : SymbolTable) (name : String) (value : Symbol.Value)
    (other : String) :
    (table.insertIfNew name value).2.find? other =
      if other = name then some ((table.find? name).getD value) else table.find? other := by
  unfold insertIfNew
  cases found : table.find? name with
  | none => simp [find?_push]
  | some before => by_cases same : other = name <;> simp [same, found]

/-- An assignment gives the symbol its new value and leaves the others alone. -/
theorem find?_assign (table : SymbolTable) (name : String) (value : Symbol.Value) (other : String) :
    (table.assign name value).2.find? other =
      if other = name then some value else table.find? other := by
  unfold assign
  cases found : table.find? name with
  | none => exact table.find?_push name value other
  | some before => exact table.values.find?_insert name value other

/-- A new symbol comes last, and a known one keeps its place. -/
theorem order_insertIfNew (table : SymbolTable) (name : String) (value : Symbol.Value) :
    (table.insertIfNew name value).2.order =
      if (table.find? name).isSome then table.order else table.order ++ [name] := by
  unfold insertIfNew
  cases table.find? name <;> rfl

theorem order_assign (table : SymbolTable) (name : String) (value : Symbol.Value) :
    (table.assign name value).2.order =
      if (table.find? name).isSome then table.order else table.order ++ [name] := by
  unfold assign
  cases table.find? name <;> rfl

end SymbolTable
end FirstPass
