import FirstPass.Host.Failure

namespace FirstPass

/-!
File systems.

A file system is a finite map from places to files, directories and devices,
with one directory to start from.  A place is the list of names on the way to
it from the root.  Names that are passed through must be directories.  A
directory can be opened for reading, but reading it fails; it cannot be
written.

Writing either puts the new content at one place or leaves the file system
as it was.
-/

/-- A device takes everything and keeps nothing, or is full. -/
inductive Device
  | null
  | full
deriving DecidableEq, Repr

inductive Node
  | file (content : List UInt8)
  | directory
  | device (device : Device)
deriving DecidableEq, Repr

/-- The names on the way from the root. -/
abbrev Place := List (List UInt8)

structure FileSystem where
  nodes : List (Place × Node)
  home : Place
deriving DecidableEq, Repr

/-- What opening a file for reading gives. -/
inductive Opened
  | refused (cause : Cause)
  | unreadable (cause : Cause)
  | content (bytes : List UInt8)
deriving DecidableEq, Repr

namespace FileSystem

/-- What stands at a place. -/
def get? (files : FileSystem) (place : Place) : Option Node :=
  files.nodes.lookup place

/-- Put a node at a place. -/
def put (files : FileSystem) (place : Place) (node : Node) : FileSystem :=
  { files with nodes := (place, node) :: files.nodes.filter fun entry => entry.1 ≠ place }

theorem lookup_filter_of_ne {place other : Place} (different : other ≠ place)
    (nodes : List (Place × Node)) :
    (nodes.filter fun entry => entry.1 ≠ place).lookup other = nodes.lookup other := by
  induction nodes with
  | nil => rfl
  | cons entry rest ih =>
      obtain ⟨key, node⟩ := entry
      by_cases removed : key = place
      · subst removed
        have absent : (other == key) = false := beq_eq_false_iff_ne.mpr different
        simpa [List.lookup_cons, absent] using ih
      · simp only [List.filter_cons, decide_not, Bool.not_eq_true', decide_eq_false_iff_not,
          removed, not_false_eq_true, if_true, List.lookup_cons]
        simp only [decide_not] at ih
        rw [ih]

/-- Putting a node at a place changes that place only. -/
theorem get?_put (files : FileSystem) (place : Place) (node : Node) (other : Place) :
    (files.put place node).get? other = if other = place then some node else files.get? other := by
  by_cases same : other = place
  · simp [get?, put, same]
  · have absent : (other == place) = false := beq_eq_false_iff_ne.mpr same
    simp only [get?, put, List.lookup_cons, absent, same, if_false]
    exact lookup_filter_of_ne same files.nodes

/-- A file system with an empty directory to start from and two devices. -/
def initial : FileSystem :=
  let dev := Utf8.encode "dev"
  { nodes :=
      [([], .directory), ([dev], .directory),
        ([dev, Utf8.encode "null"], .device .null), ([dev, Utf8.encode "full"], .device .full),
        ([Utf8.encode "work"], .directory)]
    home := [Utf8.encode "work"] }

def slash : UInt8 := 0x2F

/-- The names in a path, with empty ones where slashes meet. -/
def steps (name : FileName) : List (List UInt8) :=
  name.bytes.splitOn slash

/-- Where a path starts: a path that begins with a slash starts at the root. -/
def base (files : FileSystem) (name : FileName) : Place :=
  if name.bytes.head? = some slash then [] else files.home

/-- One step from a directory.  A dot stays, two dots go back. -/
def enter (place : Place) (step : List UInt8) : Place :=
  if step = [] ∨ step = Utf8.encode "." then place
  else if step = Utf8.encode ".." then place.dropLast
  else place ++ [step]

/-- The place that steps lead to.  The last place need not exist. -/
def walk (files : FileSystem) (place : Place) : List (List UInt8) → Except Cause Place
  | [] => .ok place
  | step :: rest =>
      match files.get? place with
      | none => .error (.system .notFound)
      | some .directory =>
          if 255 < step.length then .error (.system .nameTooLong)
          else walk files (enter place step) rest
      | some _ => .error (.system .notADirectory)

/-- Why a name cannot be a path at all. -/
def nameCause? (name : FileName) : Option Cause :=
  if name.bytes.contains 0 then some .nulInName
  else if name.bytes.isEmpty then some (.system .notFound)
  else if 4096 ≤ name.bytes.length then some (.system .nameTooLong)
  else none

/-- Open a file for reading.  A device has nothing to read. -/
def openInput (files : FileSystem) (name : FileName) : Opened :=
  match nameCause? name with
  | some cause => .refused cause
  | none => match files.walk (files.base name) (steps name) with
    | .error cause => .refused cause
    | .ok place => match files.get? place with
      | none => .refused (.system .notFound)
      | some .directory => .unreadable (.system .isADirectory)
      | some (.device _) => .content []
      | some (.file content) => .content content

/-- The place at which a file can be created or replaced.  The directory that
holds it must exist.  A path that ends in a slash names no file, whatever its
last name is: only the way to that name is followed. -/
def createPlace (files : FileSystem) (name : FileName) : Except Cause Place :=
  match nameCause? name with
  | some cause => .error cause
  | none =>
      let path := steps name
      let named := (path.reverse.dropWhile List.isEmpty).reverse
      if named.length < path.length then
        match files.walk (files.base name) (named.dropLast ++ [[]]) with
        | .error cause => .error cause
        | .ok _ => .error (.system .isADirectory)
      else match files.walk (files.base name) named with
        | .error cause => .error cause
        | .ok place => match files.get? place with
          | some .directory => .error (.system .isADirectory)
          | _ => .ok place

/-- Create or replace a file. -/
def write (files : FileSystem) (name : FileName) (content : List UInt8) : Except Cause FileSystem :=
  match files.createPlace name with
  | .error cause => .error cause
  | .ok place => match files.get? place with
    | some (.device .full) => if content.isEmpty then .ok files else .error (.system .noSpace)
    | some (.device .null) => .ok files
    | _ => .ok (files.put place (.file content))

/-- Add a directory or a file, with the directories on the way to it. -/
def add (files : FileSystem) (name : FileName) (node : Node) : FileSystem :=
  let place := (steps name).foldl enter (files.base name)
  let ways := (List.range place.length).map fun count => place.take count
  let withWays := ways.foldl
    (fun files way => if (files.get? way).isSome then files else files.put way .directory) files
  withWays.put place node

/-- The content of a file, if the name leads to one. -/
def contentOf? (files : FileSystem) (name : FileName) : Option (List UInt8) :=
  match files.openInput name with
  | .content bytes => some bytes
  | .refused _ | .unreadable _ => none

end FileSystem
end FirstPass
