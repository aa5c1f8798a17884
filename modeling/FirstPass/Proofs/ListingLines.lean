import FirstPass.Listing
import FirstPass.Proofs.Continuation
import FirstPass.Proofs.ProgramWords
import FirstPass.Proofs.SourceFiles

namespace FirstPass

/-!
The lines of a listing.

A listing is a text in which every line is ended by a line feed, and nothing in
the program can add a line to it: what a listing takes from the program are words,
and no word has a line feed, even where a source line has one.  So the lines of a
listing can be counted, and cutting the text at its line feeds gives them back.
-/

namespace Text

/-! ## Texts without line feeds -/

/-- A text that is within one line. -/
def Unbroken (text : String) : Prop :=
  '\n' ∉ text.toList

theorem unbroken_ofList {chars : List Char} (absent : '\n' ∉ chars) :
    Unbroken (String.ofList chars) := by
  rw [Unbroken, String.toList_ofList]
  exact absent

theorem unbroken_append {first second : String} :
    Unbroken (first ++ second) ↔ Unbroken first ∧ Unbroken second := by
  simp only [Unbroken, String.toList_append, List.mem_append, not_or]

/-- Fixed wording around a text that is within one line. -/
theorem unbroken_around {front back : List Char} {text : String} (fixed : '\n' ∉ front ++ back)
    (unbroken : Unbroken text) : Unbroken (String.ofList front ++ text ++ String.ofList back) := by
  rcases not_or.mp (mt List.mem_append.mpr fixed) with ⟨before, after⟩
  exact unbroken_append.mpr ⟨unbroken_append.mpr ⟨unbroken_ofList before, unbroken⟩,
    unbroken_ofList after⟩

/-- Fixed wording between two texts that are within one line. -/
theorem unbroken_between {first second : String} {middle : List Char} (fixed : '\n' ∉ middle)
    (before : Unbroken first) (after : Unbroken second) :
    Unbroken (first ++ String.ofList middle ++ second) :=
  unbroken_append.mpr ⟨unbroken_append.mpr ⟨before, unbroken_ofList fixed⟩, after⟩

theorem unbroken_after {front : List Char} {text : String} (fixed : '\n' ∉ front)
    (unbroken : Unbroken text) : Unbroken (String.ofList front ++ text) :=
  unbroken_append.mpr ⟨unbroken_ofList fixed, unbroken⟩

theorem unbroken_before {text : String} {back : List Char} (fixed : '\n' ∉ back)
    (unbroken : Unbroken text) : Unbroken (text ++ String.ofList back) :=
  unbroken_append.mpr ⟨unbroken, unbroken_ofList fixed⟩

theorem unbroken_join {texts : List String} (unbroken : ∀ text ∈ texts, Unbroken text) :
    Unbroken (String.join texts) := by
  unfold Unbroken
  rw [String.toList_join, List.mem_flatMap]
  rintro ⟨text, isText, feeds⟩
  exact unbroken text isText feeds

theorem unbroken_of_solid {word : String} (solid : Token.Solid word.toList) : Unbroken word := by
  intro feeds
  cases solid.unbroken '\n' feeds

theorem unbroken_repr (number : Nat) : Unbroken number.repr := by
  intro feeds
  cases Decimal.isDigit_of_mem_repr feeds

theorem unbroken_ofInt (number : Int) : Unbroken (Decimal.ofInt number) := by
  cases number with
  | ofNat magnitude => exact unbroken_repr magnitude
  | negSucc below => exact unbroken_after (by decide) (unbroken_repr (below + 1))

theorem unbroken_twoDigits (number : Nat) : Unbroken (Decimal.twoDigits number) := by
  unfold Decimal.twoDigits
  split
  · exact unbroken_after (by decide) (unbroken_repr number)
  · exact unbroken_repr number

/-! ## Lines put together and cut apart -/

/-- What stands between the line feeds of a text. -/
def pieces (text : String) : List String :=
  (text.toList.splitOn '\n').map String.ofList

theorem length_pieces (text : String) : (pieces text).length = text.toList.count '\n' + 1 := by
  rw [pieces, List.length_map, length_splitOn]

theorem unlines_cons (line : String) (lines : List String) :
    unlines (line :: lines) = line ++ "\n" ++ unlines lines := by
  rw [unlines, List.map_cons, String.join_cons]
  rfl

theorem unlines_append (first second : List String) :
    unlines (first ++ second) = unlines first ++ unlines second := by
  unfold unlines
  rw [List.map_append, String.join_append]

/-- Cutting a text at its line feeds gives back the lines that it was made of. -/
theorem pieces_unlines {lines : List String} (unbroken : ∀ line ∈ lines, Unbroken line) :
    pieces (unlines lines) = lines ++ [""] := by
  induction lines with
  | nil => rfl
  | cons line rest ih =>
      rcases List.forall_mem_cons.mp unbroken with ⟨here, later⟩
      have cut : (unlines (line :: rest)).toList.splitOn '\n' =
          line.toList :: (unlines rest).toList.splitOn '\n' := by
        rw [unlines_cons, String.toList_append, String.toList_append, List.append_assoc]
        exact List.splitOn_append_cons_self_of_not_mem here _
      rw [pieces, cut, List.map_cons, String.ofList_toList]
      exact congrArg (line :: ·) (ih later)

end Text

/-! ## What a report shows is within one line -/

theorem Category.unbroken_text (category : Category) : Text.Unbroken category.text := by
  cases category <;> exact Text.unbroken_ofList (by decide)

theorem Record.unbroken_text {record : Record} (words : ∀ word ∈ record.words, Text.Unbroken word) :
    Text.Unbroken record.text := by
  cases record with
  | instruction address category opcode =>
      have after : ∀ place, Text.Unbroken place →
          Text.Unbroken (place ++ "(" ++ category.text ++ " , " ++ opcode.text ++ ")") := by
        intro place unbroken
        have opened :=
          Text.unbroken_between (show '\n' ∉ ['('] by decide) unbroken category.unbroken_text
        exact Text.unbroken_before (by decide)
          (Text.unbroken_between (by decide) opened (Text.unbroken_twoDigits opcode.value.toNat))
      cases address with
      | none => exact after _ (Text.unbroken_ofList (by decide))
      | some place =>
          exact after _ (Text.unbroken_before (by decide) (Text.unbroken_ofInt place.value))
  | register code => exact Text.unbroken_repr code.value.toNat
  | condition code => exact Text.unbroken_repr code.value.toNat
  | constant digits => exact Text.unbroken_around (by decide) (words digits List.mem_cons_self)
  | reference name index => exact Text.unbroken_around (by decide) (Text.unbroken_repr index)
  | label name => exact List.not_mem_nil

theorem Fault.unbroken_of_mem_expectations {expected : String} (member : expected ∈ expectations) :
    Text.Unbroken expected := by
  revert expected
  simp only [expectations, List.forall_mem_cons]
  exact ⟨Text.unbroken_ofList (by decide), Text.unbroken_ofList (by decide),
    Text.unbroken_ofList (by decide), Text.unbroken_ofList (by decide), List.forall_mem_nil _⟩

theorem Fault.unbroken_message {fault : Fault} (words : ∀ word ∈ fault.words, Text.Unbroken word)
    (expected : ∀ expected ∈ fault.expected?, expected ∈ expectations) :
    Text.Unbroken fault.message := by
  cases fault with
  | missingOperand mnemonic lacking =>
      exact Text.unbroken_between (by decide) (words mnemonic List.mem_cons_self)
        (unbroken_of_mem_expectations (expected lacking rfl))
  | badOperand mnemonic operand =>
      have given := words operand (List.mem_cons_of_mem mnemonic List.mem_cons_self)
      exact Text.unbroken_append.mpr ⟨Text.unbroken_around (by decide) given,
        words mnemonic List.mem_cons_self⟩
  | counterUnstarted mnemonic =>
      exact Text.unbroken_around (by decide) (words mnemonic List.mem_cons_self)
  | afterEnd mnemonic => exact Text.unbroken_before (by decide) (words mnemonic List.mem_cons_self)
  | unresolvedSymbol name => exact Text.unbroken_around (by decide) (words name List.mem_cons_self)
  | unplacedSymbol name => exact Text.unbroken_around (by decide) (words name List.mem_cons_self)
  | unknownOperator text => exact Text.unbroken_around (by decide) (words text List.mem_cons_self)
  | divisionByZero => exact Text.unbroken_ofList (by decide)
  | addressOutOfRange => exact Text.unbroken_ofList (by decide)
  | missingLabel => exact Text.unbroken_ofList (by decide)

theorem Diagnostic.unbroken_text {diagnostic : Diagnostic}
    (unbroken : Text.Unbroken diagnostic.fault.message) : Text.Unbroken diagnostic.text :=
  Text.unbroken_append.mpr ⟨Text.unbroken_around (by decide) (Text.unbroken_repr diagnostic.line),
    unbroken⟩

theorem Symbol.Value.unbroken_text (value : Value) : Text.Unbroken value.text := by
  cases value with
  | address place => exact Text.unbroken_ofInt place.value
  | unresolved => exact Text.unbroken_ofList (by decide)
  | unplaced => exact Text.unbroken_ofList (by decide)

theorem SymbolTable.unbroken_entryText {entry : String × Symbol.Value}
    (unbroken : Text.Unbroken entry.1) : Text.Unbroken (entryText entry) :=
  Text.unbroken_append.mpr ⟨Text.unbroken_around (by decide) unbroken, entry.2.unbroken_text⟩

theorem SymbolTable.unbroken_of_mem_lines {table : SymbolTable}
    (solid : ∀ entry ∈ table.toList, Token.Solid entry.1.toList) :
    ∀ text ∈ table.lines, Text.Unbroken text := by
  intro text isText
  rcases List.mem_map.mp isText with ⟨entry, isEntry, same⟩
  rw [← same]
  exact unbroken_entryText (Text.unbroken_of_solid (solid entry isEntry))

/-! ## The words of a report are within one line -/

section Words

variable {set : InstructionSet} {lines : List String}

theorem unbroken_words_of_line {line : AssembledLine} (isLine : line ∈ (assemble set lines).lines) :
    (∀ record ∈ line.records, ∀ word ∈ record.words, Text.Unbroken word) ∧
      ∀ fault ∈ line.faults, ∀ word ∈ fault.words, Text.Unbroken word := by
  rcases words_of_line isLine with ⟨source, _, records, faults⟩
  have unbroken : ∀ word, ⟨word⟩ ∈ Token.scan source → Text.Unbroken word :=
    fun word inSource => Text.unbroken_of_solid (Token.solid_of_mem_scan inSource)
  refine ⟨?_, ?_⟩
  · intro record isRecord word isWord
    exact unbroken word (records record isRecord word isWord)
  · intro fault isFault word isWord
    exact unbroken word ((faults fault isFault).words word isWord)

theorem solid_of_symbol {entry : String × Symbol.Value}
    (member : entry ∈ (assemble set lines).symbols.toList) : Token.Solid entry.1.toList := by
  rcases name_of_symbol member with ⟨source, _, inSource⟩
  exact Token.solid_of_mem_scan inSource

theorem unbroken_text_of_line {line : AssembledLine} (isLine : line ∈ (assemble set lines).lines) :
    Text.Unbroken line.text := by
  apply Text.unbroken_join
  intro text isText
  rcases List.mem_map.mp isText with ⟨record, isRecord, same⟩
  rw [← same]
  exact Record.unbroken_text ((unbroken_words_of_line isLine).1 record isRecord)

theorem unbroken_message_of_line {line : AssembledLine} (isLine : line ∈ (assemble set lines).lines)
    {fault : Fault} (isFault : fault ∈ line.faults) : Text.Unbroken fault.message := by
  rcases words_of_line isLine with ⟨_, _, _, faults⟩
  exact Fault.unbroken_message ((unbroken_words_of_line isLine).2 fault isFault)
    (faults fault isFault).expected

end Words

namespace Listing

/-! ## The lines of a listing -/

theorem diagnosticLines_eq (report : Report) :
    diagnosticLines report =
      report.diagnostics.map Diagnostic.text ++
        if 0 < report.diagnostics.length then [""] else [] := by
  unfold diagnosticLines
  cases report.diagnostics with
  | nil => rfl
  | cons first rest => rfl

theorem length_codeLines (report : Report) :
    (codeLines report).length = report.lines.length + report.diagnostics.length := by
  unfold codeLines Report.diagnostics
  induction report.lines with
  | nil => rfl
  | cons line rest ih =>
      rw [List.flatMap_cons, List.flatMap_cons, List.length_append, List.length_append, ih,
        AssembledLine.diagnostics, List.length_map, List.length_cons, List.length_map,
        List.length_cons]
      omega

theorem length_summaryLines {report : Report} (sound : report.symbols.Sound) :
    (summaryLines report).length = report.diagnostics.length +
      (if 0 < report.diagnostics.length then 1 else 0) +
      1 + report.symbols.size := by
  have symbols : report.symbols.lines.length = report.symbols.size := by
    rw [SymbolTable.lines, List.length_map, SymbolTable.size, ← sound.map_fst_toList,
      List.length_map]
  rw [summaryLines, diagnosticLines_eq, List.length_append, List.length_append, List.length_map,
    List.length_cons, symbols]
  split
  · rw [List.length_singleton]
    omega
  · rw [List.length_nil]
    omega

/-- A full listing is the intermediate code, an empty line and the summary. -/
theorem text_full (report : Report) :
    text report true = Text.unlines (codeLines report) ++ "\n" ++ text report false := by
  have empty : Text.unlines ("" :: summaryLines report) =
      "\n" ++ Text.unlines (summaryLines report) := by
    rw [Text.unlines_cons, String.empty_append]
  simp only [text, Listing.lines, if_true, Bool.false_eq_true, if_false]
  rw [Text.unlines_append, empty, String.append_assoc]

section Program

variable {set : InstructionSet} {lines : List String}

theorem unbroken_codeLines : ∀ text ∈ codeLines (assemble set lines), Text.Unbroken text := by
  intro text isText
  rcases List.mem_flatMap.mp isText with ⟨line, isLine, inLine⟩
  rcases List.mem_cons.mp inLine with isCode | isError
  · rw [isCode]
    exact unbroken_text_of_line isLine
  · rcases List.mem_map.mp isError with ⟨fault, isFault, same⟩
    rw [← same]
    exact Text.unbroken_after (by decide) (unbroken_message_of_line isLine isFault)

theorem unbroken_diagnosticLines :
    ∀ text ∈ diagnosticLines (assemble set lines), Text.Unbroken text := by
  intro text isText
  rw [diagnosticLines_eq] at isText
  rcases List.mem_append.mp isText with isDiagnostic | isEmpty
  · rcases List.mem_map.mp isDiagnostic with ⟨diagnostic, isOne, same⟩
    rcases List.mem_flatMap.mp isOne with ⟨line, isLine, ofLine⟩
    rcases List.mem_map.mp ofLine with ⟨fault, isFault, sameDiagnostic⟩
    subst sameDiagnostic
    rw [← same]
    exact Diagnostic.unbroken_text (unbroken_message_of_line isLine isFault)
  · split at isEmpty
    · rw [List.mem_singleton.mp isEmpty]
      exact List.not_mem_nil
    · cases isEmpty

theorem unbroken_summaryLines : ∀ text ∈ summaryLines (assemble set lines), Text.Unbroken text := by
  intro text isText
  rcases List.mem_append.mp isText with isDiagnostic | isRest
  · exact unbroken_diagnosticLines text isDiagnostic
  · rcases List.mem_cons.mp isRest with isTitle | isSymbol
    · rw [isTitle]
      exact Text.unbroken_ofList (by decide)
    · exact SymbolTable.unbroken_of_mem_lines (fun _ => solid_of_symbol) text isSymbol

/-- Every line of the listing of a program is within one line. -/
theorem unbroken_lines (full : Bool) :
    ∀ text ∈ Listing.lines (assemble set lines) full, Text.Unbroken text := by
  cases full with
  | false => exact unbroken_summaryLines
  | true =>
      intro text isText
      rcases List.mem_append.mp isText with isCode | isRest
      · exact unbroken_codeLines text isCode
      · rcases List.mem_cons.mp isRest with isEmpty | isSummary
        · rw [isEmpty]
          exact List.not_mem_nil
        · exact unbroken_summaryLines text isSummary

theorem count_text (full : Bool) :
    (text (assemble set lines) full).toList.count '\n' =
      (Listing.lines (assemble set lines) full).length := by
  have cut := congrArg List.length (Text.pieces_unlines (@unbroken_lines set lines full))
  rw [Text.length_pieces, List.length_append, List.length_singleton] at cut
  exact Nat.succ.inj cut

end Program

/-- The listing of a program, line by line.  A full listing is the intermediate
code, an empty line and the summary.  The number of lines follows from the number of
source lines, diagnostics and symbols.  No word that the report takes from the
program has a line feed, so cutting the text at its line feeds gives back the
diagnostics, the symbols and, in a full listing, the code of each line with its
faults, in order. -/
theorem pieces_text (set : InstructionSet) (lines : List String) :
    let report := assemble set lines
    let diagnostics := report.diagnostics.length
    let feeds := fun full => (text report full).toList.count '\n'
    text report true = Text.unlines (codeLines report) ++ "\n" ++ text report false ∧
    feeds false = diagnostics + (if 0 < diagnostics then 1 else 0) + 1 + report.symbols.size ∧
    feeds true = feeds false + (lines.length + diagnostics + 1) ∧
    (∀ line ∈ report.lines, (∀ record ∈ line.records, ∀ word ∈ record.words, Text.Unbroken word) ∧
      ∀ fault ∈ line.faults, ∀ word ∈ fault.words, Text.Unbroken word) ∧
    (∀ entry ∈ report.symbols.toList, Text.Unbroken entry.1) ∧
    Text.pieces (text report false) =
      report.diagnostics.map Diagnostic.text ++ (if 0 < diagnostics then [""] else []) ++
        "Complete Symbol Table:" :: report.symbols.toList.map SymbolTable.entryText ++ [""] ∧
    Text.pieces (text report true) =
      (report.lines.flatMap fun line =>
        line.text :: line.faults.map fun fault => "    Error: " ++ fault.message) ++
        "" :: Text.pieces (text report false) := by
  intro report diagnostics feeds
  have summary : Text.pieces (text report false) = summaryLines report ++ [""] :=
    Text.pieces_unlines (unbroken_lines false)
  have whole : Text.pieces (text report true) =
      (codeLines report ++ "" :: summaryLines report) ++ [""] :=
    Text.pieces_unlines (unbroken_lines true)
  refine ⟨text_full report, ?_, ?_, fun line isLine => unbroken_words_of_line isLine, ?_, ?_, ?_⟩
  · exact (count_text false).trans (length_summaryLines (sound_assemble set lines))
  · have counted : feeds true = (codeLines report).length + ((summaryLines report).length + 1) := by
      rw [← List.length_cons, ← List.length_append]
      exact count_text true
    have fewer : feeds false = (summaryLines report).length := count_text false
    rw [counted, fewer, length_codeLines, length_lines_assemble]
    omega
  · intro entry isEntry
    exact Text.unbroken_of_solid (solid_of_symbol isEntry)
  · rw [summary, summaryLines, diagnosticLines_eq]
    rfl
  · rw [whole, summary, List.append_assoc, List.cons_append]
    rfl

end Listing
end FirstPass
