namespace FirstPass
namespace Text

/-!
Lines of a text and of a sequence of bytes.

A line ends at a line feed, and one carriage return directly before the line
feed belongs to the ending.  What stands after the last line feed is a line
of its own unless it is empty; since no line feed ends it, a carriage return
at its end stays.  The rule does not look at anything but the two ending
symbols, so one definition serves characters and bytes.
-/

/-- Remove one carriage return from the end of a line. -/
def dropReturn {Item : Type} [DecidableEq Item] (cr : Item) (line : List Item) : List Item :=
  if line.getLast? = some cr then line.dropLast else line

/-- The lines of a sequence in which `lf` and `cr` play the line feed and the
carriage return. -/
def splitLines {Item : Type} [DecidableEq Item] (lf cr : Item) (text : List Item) :
    List (List Item) :=
  let pieces := text.splitOn lf
  let ended := pieces.dropLast.map (dropReturn cr)
  match pieces.getLast? with
  | none | some [] => ended
  | some rest => ended ++ [rest]

/-- The lines of a text. -/
def lines (text : String) : List String :=
  (splitLines '\n' '\r' text.toList).map String.ofList

/-- A text made of the given lines, each ended by a line feed. -/
def unlines (lines : List String) : String :=
  String.join (lines.map (fun line => line ++ "\n"))

end Text
end FirstPass
