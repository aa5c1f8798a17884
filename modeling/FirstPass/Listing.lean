import FirstPass.Assembly

namespace FirstPass
namespace Listing

/-!
The listing of a program.

A listing ends with a summary: the diagnostics, set off by an empty line if
there are any, and the symbol table.  A full listing shows the intermediate
code first, each line followed by its faults, and then an empty line.  Every
line of a listing is ended by a line feed.
-/

/-- The intermediate code, with the faults below each line. -/
def codeLines (report : Report) : List String :=
  report.lines.flatMap fun line =>
    line.text :: line.faults.map fun fault => "    Error: " ++ fault.message

def diagnosticLines (report : Report) : List String :=
  match report.diagnostics with
  | [] => []
  | diagnostics => diagnostics.map Diagnostic.text ++ [""]

def summaryLines (report : Report) : List String :=
  diagnosticLines report ++ "Complete Symbol Table:" :: report.symbols.lines

/-- The lines of a listing, with or without the intermediate code. -/
def lines (report : Report) (full : Bool) : List String :=
  if full then codeLines report ++ "" :: summaryLines report else summaryLines report

def text (report : Report) (full : Bool) : String :=
  Text.unlines (lines report full)

end Listing
end FirstPass
