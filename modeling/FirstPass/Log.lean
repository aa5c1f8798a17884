namespace FirstPass
namespace Log

/-!
Log entries.

An entry has a level, the scopes in which it arose from the outermost to the
innermost, the part of the program that it comes from, and a message.
Scopes have levels too.  A threshold hides the entries and the scopes below
it; without a threshold everything is hidden.
-/

inductive Level
  | trace
  | debug
  | info
  | warn
  | error
deriving DecidableEq, Repr

namespace Level

def severity : Level → Nat
  | .trace => 0
  | .debug => 1
  | .info => 2
  | .warn => 3
  | .error => 4

def text : Level → String
  | .trace => "TRACE"
  | .debug => "DEBUG"
  | .info => "INFO"
  | .warn => "WARN"
  | .error => "ERROR"

end Level

/-- A stretch of the work.  The whole command is described by the quoted
names of its input and of its output. -/
inductive Scope
  | command (input output : String)
  | pass
  | listing
deriving DecidableEq, Repr

namespace Scope

def name : Scope → String
  | .command _ _ => "assemble"
  | .pass => "pass 1"
  | .listing => "write listing"

def level : Scope → Level
  | .command _ _ => .error
  | .pass => .info
  | .listing => .error

/-- The name of a scope with what describes it. -/
def text (scope : Scope) : String :=
  match scope with
  | .command input output => scope.name ++ "\x7binput=" ++ input ++ " output=" ++ output ++ "\x7d"
  | .pass | .listing => scope.name

end Scope

/-- The part of the program that an entry comes from. -/
inductive Part
  | pass
  | directive
  | symbols
  | output
  | command
deriving DecidableEq, Repr

def Part.text : Part → String
  | .pass => "assembler::driver"
  | .directive => "assembler::directive"
  | .symbols => "assembler::symtab"
  | .output => "assembler::driver::output"
  | .command => "pass1as"

structure Entry where
  level : Level
  scopes : List Scope := []
  part : Part
  message : String
deriving DecidableEq, Repr

/-- Whether a threshold lets a level through. -/
def Level.reaches (level : Level) : Option Level → Bool
  | none => false
  | some least => least.severity ≤ level.severity

/-- The threshold that a word asks for, in small letters or by number; the
empty word asks for errors only.  Other words ask for nothing known. -/
def thresholdOfWord? (word : String) : Option (Option Level) :=
  if word = "off" ∨ word = "0" then some none
  else if word = "error" ∨ word = "1" ∨ word = "" then some (some .error)
  else if word = "warn" ∨ word = "2" then some (some .warn)
  else if word = "info" ∨ word = "3" then some (some .info)
  else if word = "debug" ∨ word = "4" then some (some .debug)
  else if word = "trace" ∨ word = "5" then some (some .trace)
  else none

/-- The threshold of a setting, which may be missing.  Capital letters do not
matter, and a setting that is not understood counts as a missing one. -/
def threshold (setting : Option String) : Option Level :=
  ((setting.bind fun word => thresholdOfWord? word.toLower).getD (some .info))

/-- Controls that a terminal could obey are written as escapes. -/
def visible (c : Char) : String :=
  if c = '\x1b' then "\\x1b"
  else if c = '\x07' then "\\x07"
  else if c = '\x08' then "\\x08"
  else if c = '\x0c' then "\\x0c"
  else if c = '\x7f' then "\\x7f"
  else if 0x80 ≤ c.toNat ∧ c.toNat ≤ 0x9f then
    "\\u\x7b" ++ String.ofList (Nat.toDigits 16 c.toNat) ++ "\x7d"
  else String.singleton c

namespace Entry

/-- The line that shows an entry, with the scopes that reach the threshold. -/
def text (entry : Entry) (least : Option Level) : String :=
  let scopes := (entry.scopes.filter fun scope => scope.level.reaches least).map Scope.text
  let place := if scopes.isEmpty then "" else ":".intercalate scopes ++ ": "
  let message := String.join (entry.message.toList.map visible)
  entry.level.text ++ " " ++ place ++ entry.part.text ++ ": " ++ message

/-- The entry inside one more scope. -/
def within (entry : Entry) (scope : Scope) : Entry :=
  { entry with scopes := scope :: entry.scopes }

end Entry

/-- The lines of a log: the entries that reach the threshold. -/
def lines (least : Option Level) (entries : List Entry) : List String :=
  (entries.filter fun entry => entry.level.reaches least).map fun entry => entry.text least

end Log
end FirstPass
