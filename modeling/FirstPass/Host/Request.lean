import FirstPass.Host.Job

namespace FirstPass

/-!
The arguments of the command.

Arguments are read from left to right, and the first one that decides what
the command does ends the reading: a wish for help or for the version, or an
argument that cannot be used.  Otherwise there must be exactly one input
name.  The output is named by an option, at most once; its name stands in the
same argument, after an equals sign if there is one, or in the next argument,
which then must not look like an option.  After a double dash every argument
is an input name.
-/

inductive Request
  | help
  | version
  | misuse
  | job (job : Job)
deriving DecidableEq, Repr

/-- What has been read so far. -/
structure Draft where
  input : Option FileName := none
  output : Option FileName := none
  full : Bool := false
deriving DecidableEq, Repr

namespace Draft

def setInput (draft : Draft) (name : FileName) : Option Draft :=
  if draft.input.isNone then some { draft with input := some name } else none

/-- The output may be named once, and not by an empty name. -/
def setOutput (draft : Draft) (name : List UInt8) : Option Draft :=
  if draft.output.isNone && !name.isEmpty then some { draft with output := some ⟨name⟩ } else none

def setFull (draft : Draft) : Option Draft :=
  if draft.full then none else some { draft with full := true }

def request (draft : Draft) : Request :=
  match draft.input with
  | some input => .job ⟨input, draft.output, draft.full⟩
  | none => .misuse

/-- Read arguments that are all input names. -/
def readNames (draft : Draft) : List FileName → Request
  | [] => draft.request
  | name :: rest =>
      match draft.setInput name with
      | some next => next.readNames rest
      | none => .misuse

end Draft

/-- What one argument is. -/
inductive Argument
  | name
  | escape
  | help
  | version
  | full
  | output (value : Option (List UInt8))
  | unknown
deriving DecidableEq, Repr

namespace Argument

def dash : UInt8 := 0x2D

def equals : UInt8 := 0x3D

/-- An option given by a word: two dashes, the word, and perhaps a value after
an equals sign.  Only the output takes a value. -/
def ofWord (text : List UInt8) : Argument :=
  let word := text.takeWhile (· ≠ equals)
  let value := match text.dropWhile (· ≠ equals) with
    | [] => none
    | _ :: value => some value
  if word = Utf8.encode "output" then .output value
  else if value.isSome then .unknown
  else if word = Utf8.encode "list" then .full
  else if word = Utf8.encode "help" then .help
  else if word = Utf8.encode "version" then .version
  else .unknown

/-- An option given by a letter: one dash, the letter, and perhaps a value
directly after it or after an equals sign. -/
def ofLetter (letter : UInt8) (rest : List UInt8) : Argument :=
  if [letter] = Utf8.encode "o" then
    match rest with
    | [] => .output none
    | first :: value => .output (some (if first = equals then value else first :: value))
  else if [letter] = Utf8.encode "h" then .help
  else if [letter] = Utf8.encode "V" then .version
  else .unknown

def classify (argument : FileName) : Argument :=
  match argument.bytes with
  | first :: second :: rest =>
      if first ≠ dash then .name
      else if second ≠ dash then ofLetter second rest
      else if rest.isEmpty then .escape
      else ofWord rest
  | _ => .name

end Argument

/-- Read arguments. -/
def Draft.read (draft : Draft) : List FileName → Request
  | [] => draft.request
  | argument :: rest =>
      match Argument.classify argument with
      | .name => match draft.setInput argument with
        | some next => next.read rest
        | none => .misuse
      | .escape => draft.readNames rest
      | .help => .help
      | .version => .version
      | .full => match draft.setFull with
        | some next => next.read rest
        | none => .misuse
      | .output (some value) => match draft.setOutput value with
        | some next => next.read rest
        | none => .misuse
      | .output none => match rest with
        | [] => .misuse
        | value :: rest =>
            if Argument.classify value = .name then
              match draft.setOutput value.bytes with
              | some next => next.read rest
              | none => .misuse
            else .misuse
      | .unknown => .misuse

/-- The request that a list of arguments makes. -/
def Request.ofArguments (arguments : List FileName) : Request :=
  Draft.read {} arguments

end FirstPass
