import FirstPass.Address

namespace FirstPass

/-!
Tokens and numerals.

A line of source text is read as its maximal runs of characters other than
the six blank ones.  A token that consists of the digits 0 to 9 is a number;
it is a numeral if its value is also in the range of addresses.
-/

structure Token where
  text : String
deriving DecidableEq, Repr

namespace Token

/-- Space, tab, carriage return, line feed, vertical tab and form feed. -/
def isBlank (c : Char) : Bool :=
  c = ' ' || c = '\t' || c = '\r' || c = '\n' || c = '\x0b' || c = '\x0c'

/-- The runs of characters that are not blank. -/
def words (text : List Char) : List (List Char) :=
  (text.splitOnP isBlank).filter fun word => !word.isEmpty

/-- A blank ends the words before it and is part of none. -/
theorem words_append_blank {blank : Char} (separates : isBlank blank = true)
    (before after : List Char) :
    words (before ++ blank :: after) = words before ++ words after := by
  unfold words
  rw [List.splitOnP_append_cons before after separates, List.filter_append]

/-- A text without blanks is one word. -/
theorem words_of_no_blank {word : List Char} (nonempty : word ≠ [])
    (solid : ∀ c ∈ word, isBlank c = false) : words word = [word] := by
  rw [words, List.splitOnP_eq_singleton solid]
  simp [nonempty]

/-- The tokens of a line. -/
def scan (line : String) : List Token :=
  (words line.toList).map fun word => ⟨String.ofList word⟩

/-- Whether a token consists of digits. -/
def isNumber (token : Token) : Bool :=
  !token.text.isEmpty && token.text.toList.all Char.isDigit

end Token

/-- A number in the range of addresses, with the digits that spell it. -/
structure Numeral where
  digits : String
  value : Address
deriving DecidableEq, Repr

namespace Numeral

/-- The numeral that a token spells, if it is one. -/
def ofToken? (token : Token) : Option Numeral :=
  if token.isNumber then
    (Address.ofInt? (Decimal.value token.text.toList)).map fun value => ⟨token.text, value⟩
  else none

def token (numeral : Numeral) : Token :=
  ⟨numeral.digits⟩

theorem token_of_ofToken? {token : Token} {numeral : Numeral}
    (spelled : ofToken? token = some numeral) : numeral.token = token := by
  unfold ofToken? at spelled
  split at spelled
  · obtain ⟨value, _, same⟩ := Option.map_eq_some_iff.mp spelled
    subst same
    rfl
  · cases spelled

end Numeral
end FirstPass
