import FirstPass.Host.Command
import FirstPass.Proofs.Events
import FirstPass.Proofs.FileEffects
import FirstPass.Proofs.ListingLines

namespace FirstPass

/-!
How it is told whether a program is correct.

A report says it twice, by its diagnostics and by its lines.  A listing says it by
what it begins with, and tells the number of faults by the lines before its first
empty line.  The command says it by its exit status, and tells the number of faults
on the standard error.  All of them agree.
-/

/-! ## Reports -/

theorem Report.hasFaults_eq_false_iff {report : Report} :
    report.hasFaults = false ↔ report.diagnostics = [] := by
  unfold hasFaults diagnostics
  rw [List.any_eq_false, List.flatMap_eq_nil_iff]
  apply forall₂_congr
  intro line _
  rw [AssembledLine.diagnostics, List.map_eq_nil_iff, Bool.not_eq_true, Bool.not_eq_false',
    List.isEmpty_iff]

theorem State.numbers_steps (set : InstructionSet) (state : State) (number : Nat)
    (lines : List String) :
    (state.steps set number lines).map (fun step => step.line.number) =
      List.range' number lines.length := by
  induction lines generalizing state number with
  | nil => rfl
  | cons source rest ih =>
      rw [steps, List.map_cons, List.length_cons, List.range'_succ, ih]
      rfl

/-- The lines of a report are numbered from one. -/
theorem map_number_lines (set : InstructionSet) (lines : List String) :
    (assemble set lines).lines.map AssembledLine.number = List.range' 1 lines.length := by
  rw [lines_assemble, List.map_map]
  exact State.numbers_steps set {} 1 lines

theorem AssembledLine.line_of_mem_diagnostics {line : AssembledLine} {diagnostic : Diagnostic}
    (member : diagnostic ∈ line.diagnostics) : diagnostic.line = line.number := by
  rcases List.mem_map.mp member with ⟨fault, _, isDiagnostic⟩
  rw [← isDiagnostic]

/-- Diagnostics come in the order of their lines. -/
theorem diagnostics_ordered (set : InstructionSet) (lines : List String) :
    ((assemble set lines).diagnostics.map Diagnostic.line).Pairwise (· ≤ ·) := by
  have increasing : ((assemble set lines).lines.map AssembledLine.number).Pairwise (· < ·) := by
    rw [map_number_lines]
    exact List.pairwise_lt_range'
  rw [List.pairwise_map] at increasing ⊢
  refine List.pairwise_flatMap.mpr ⟨?_, increasing.imp ?_⟩
  · intro line _
    refine List.pairwise_of_forall_mem_list ?_
    intro one isOne other isOther
    rw [AssembledLine.line_of_mem_diagnostics isOne, AssembledLine.line_of_mem_diagnostics isOther]
  · intro line later less one isOne other isOther
    rw [AssembledLine.line_of_mem_diagnostics isOne, AssembledLine.line_of_mem_diagnostics isOther]
    exact Nat.le_of_lt less

/-- The line of a diagnostic is a line of the program. -/
theorem line_of_diagnostic {set : InstructionSet} {lines : List String} {diagnostic : Diagnostic}
    (member : diagnostic ∈ (assemble set lines).diagnostics) :
    1 ≤ diagnostic.line ∧ diagnostic.line ≤ lines.length := by
  rcases List.mem_flatMap.mp member with ⟨line, isLine, ofLine⟩
  have isNumber : line.number ∈ List.range' 1 lines.length := by
    rw [← map_number_lines set lines]
    exact List.mem_map_of_mem isLine
  rw [AssembledLine.line_of_mem_diagnostics ofLine]
  have bounds := List.mem_range'_1.mp isNumber
  omega

/-! ## Listings -/

/-- A diagnostic begins neither as the title of the symbols does nor as an empty line. -/
theorem Diagnostic.toList_text (diagnostic : Diagnostic) :
    ∃ rest, diagnostic.text.toList = 'l' :: rest := by
  simp only [text, String.toList_append, List.append_assoc]
  exact ⟨_, rfl⟩

theorem Diagnostic.isEmpty_text (diagnostic : Diagnostic) : diagnostic.text.isEmpty = false := by
  rcases diagnostic.toList_text with ⟨rest, begins⟩
  rw [String.isEmpty_eq_false_iff]
  intro empty
  rw [empty] at begins
  cases begins

namespace Listing

theorem text_summary (report : Report) : text report false = Text.unlines (summaryLines report) :=
  rfl

theorem summaryLines_of_nil {report : Report} (correct : report.diagnostics = []) :
    summaryLines report = "Complete Symbol Table:" :: report.symbols.lines := by
  rw [summaryLines, diagnosticLines, correct]
  rfl

theorem summaryLines_of_ne_nil {report : Report} (faulty : report.diagnostics ≠ []) :
    summaryLines report =
      report.diagnostics.map Diagnostic.text ++ "" :: "Complete Symbol Table:" ::
        report.symbols.lines := by
  rw [summaryLines, diagnosticLines_eq, if_pos (List.length_pos_iff.mpr faulty), List.append_assoc]
  rfl

/-- The summary of a correct program begins with the title of the symbols, and no other
does. -/
theorem title_prefix_iff {report : Report} :
    "Complete Symbol Table:".toList <+: (text report false).toList ↔ report.diagnostics = [] := by
  constructor
  · intro titled
    -- Otherwise the listing would begin with a diagnostic, whose first letter is another one.
    by_contra faulty
    rcases List.exists_cons_of_ne_nil faulty with ⟨first, later, isFirst⟩
    rcases first.toList_text with ⟨rest, begins⟩
    rw [text_summary, summaryLines_of_ne_nil faulty, isFirst, List.map_cons, List.cons_append,
      Text.unlines_cons, String.toList_append, String.toList_append, begins] at titled
    have sameHead := (List.cons_prefix_cons.mp titled).1
    cases sameHead
  · intro correct
    rw [text_summary, summaryLines_of_nil correct, Text.unlines_cons, String.toList_append,
      String.toList_append, List.append_assoc]
    exact List.prefix_append _ _

/-- Diagnostics are counted by the lines before the first empty line. -/
theorem length_takeWhile_pieces {set : InstructionSet} {lines : List String}
    (faulty : (assemble set lines).diagnostics ≠ []) :
    ((Text.pieces (text (assemble set lines) false)).takeWhile fun line => !line.isEmpty).length =
      (assemble set lines).diagnostics.length := by
  have cut : Text.pieces (text (assemble set lines) false) =
      summaryLines (assemble set lines) ++ [""] :=
    Text.pieces_unlines (unbroken_lines false)
  -- No diagnostic is an empty line, so the first one is the line that sets them off.
  have filled : ∀ line ∈ (assemble set lines).diagnostics.map Diagnostic.text,
      (!line.isEmpty) = true := by
    intro line isLine
    rcases List.mem_map.mp isLine with ⟨diagnostic, _, same⟩
    rw [← same, diagnostic.isEmpty_text]
    rfl
  rw [cut, summaryLines_of_ne_nil faulty, List.append_assoc, List.takeWhile_append_of_pos filled,
    List.length_append, List.length_map]
  rfl

end Listing

/-! ## Outputs -/

namespace Host

/-- An output that takes a text: the standard output unless it is full, or a file that
can be created or replaced and is not a full device. -/
inductive Takes (host : Host) : Option FileName → Prop
  | stdout (room : host.stdoutFull = false) : Takes host none
  | file {name : FileName} {place : Place} (accepts : host.files.Accepts name place)
      (room : host.files.get? place ≠ some (.device .full)) : Takes host (some name)

/-- The files and the standard output after a text has been written to an output. -/
inductive Delivered (host : Host) (text : String) : Option FileName → FileSystem → String → Prop
  | stdout : Delivered host text none host.files text
  | file {name : FileName} {place : Place} {after : FileSystem}
      (written : host.files.Written name (Utf8.encode text) place after) :
        Delivered host text (some name) after ""

theorem Takes.write {host : Host} {output : Option FileName} (takes : host.Takes output)
    (text : String) :
    ∃ files stdout, host.write output text = .ok (files, stdout) ∧
      host.Delivered text output files stdout := by
  cases takes with
  | stdout room =>
      refine ⟨host.files, text, ?_, .stdout⟩
      simp only [Host.write, room, Bool.false_eq_true, if_false]
  | @file name place accepts room =>
      rcases host.files.write_cases name (Utf8.encode text) with
        ⟨_, _, onlyFull⟩ | ⟨_, after, isAfter, written⟩
      · exact absurd (onlyFull place accepts) room
      · refine ⟨after, "", ?_, .file written⟩
        simp only [Host.write, isAfter]

end Host

/-- A job with a readable text and an output that takes its listing succeeds, whatever
faults the program has. -/
theorem Job.run_of_takes {job : Job} {host : Host} {text : String}
    (readable : host.files.openInput job.input = .content (Utf8.encode text))
    (takes : host.Takes job.output) :
    (job.run host).result = .ok (assembleText .standard text) ∧
      host.Delivered (Listing.text (assembleText .standard text) job.full) job.output
        (job.run host).files
        (job.run host).stdout := by
  rcases takes.write (Listing.text (assembleText .standard text) job.full) with
    ⟨files, stdout, written, delivered⟩
  unfold assembleText assemble at written delivered ⊢
  simp only [run, readable, SourceFile.read_encode, written, true_and]
  exact delivered

/-! ## The command -/

theorem Text.unlines_singleton (line : String) : unlines [line] = line ++ "\n" := by
  rw [unlines_cons]
  exact String.append_empty

theorem Log.lines_none (entries : List Entry) : Log.lines none entries = [] := by
  rw [Log.lines, List.map_eq_nil_iff, List.filter_eq_nil_iff]
  intro entry _
  exact Bool.false_ne_true

namespace Command

namespace Ending

theorem ofResult_of_nil {report : Report} (correct : report.diagnostics = []) :
    ofResult (.ok report) = .correct report.symbols.size := by
  simp only [ofResult, correct, List.length_nil]

theorem ofResult_of_ne_nil {report : Report} (faulty : report.diagnostics ≠ []) :
    ofResult (.ok report) = .faulty report.diagnostics.length := by
  rcases List.exists_cons_of_ne_nil faulty with ⟨first, later, isFirst⟩
  simp only [ofResult, isFirst, List.length_cons]

/-- How the number of faults is told. -/
def countText (faults : Nat) : String :=
  if faults = 1 then "the program contains an error"
  else "the program contains " ++ faults.repr ++ " errors"

theorem message?_faulty (faults : Nat) : (faulty faults).message? = some (countText faults) := by
  rcases faults with _ | _ | more
  · rfl
  · rfl
  · rw [countText, if_neg (by omega)]
    rfl

theorem unbroken_countText (faults : Nat) : Text.Unbroken (countText faults) := by
  unfold countText
  split
  · exact Text.unbroken_ofList (by decide)
  · exact Text.unbroken_around (by decide) (Text.unbroken_repr faults)

end Ending

section Unlogged

variable {job : Job} {host : Host} {report : Report}

/-- Without a log, the standard error has at most the line that says why the status is
not zero. -/
theorem run_unlogged (isReport : (job.run host).result = .ok report) :
    let outcome := run (.job job) host none
    outcome.status = (Ending.ofResult (.ok report)).status ∧
      outcome.stderr = Text.unlines (Ending.ofResult (.ok report)).message?.toList := by
  simp only [run, isReport, logLines, Log.lines_none, List.nil_append, and_self]

theorem run_of_nil (isReport : (job.run host).result = .ok report)
    (correct : report.diagnostics = []) :
    let outcome := run (.job job) host none
    outcome.status = 0 ∧ outcome.stderr = "" := by
  have told := run_unlogged isReport
  rw [Ending.ofResult_of_nil correct] at told
  exact told

theorem run_of_ne_nil (isReport : (job.run host).result = .ok report)
    (faulty : report.diagnostics ≠ []) :
    let outcome := run (.job job) host none
    outcome.status = 1 ∧ outcome.stderr = Ending.countText report.diagnostics.length ++ "\n" := by
  have told := run_unlogged isReport
  rw [Ending.ofResult_of_ne_nil faulty, Ending.message?_faulty, Option.toList_some,
    Text.unlines_singleton] at told
  exact told

end Unlogged

/-- Everything that tells whether a program is correct agrees.  However the arguments are
read, if they ask for a job with a readable text and an output that takes the listing, and
nothing is logged, the exit status is zero exactly if there are no
diagnostics, exactly if no line has a fault, exactly if the listing without the
intermediate code begins with the title of the symbols.  Otherwise the status is one, and
the number of diagnostics is on the standard error, as its only line, and is the number of
lines before the first empty line of that listing.  In both cases the listing asked for is
written completely.  Diagnostics come in the order of their lines, which are lines of the
text. -/
theorem verdicts_agree (request : List FileName → Request) {arguments : List FileName} {job : Job}
    {host : Host} {text : String} (parsed : request arguments = .job job)
    (readable : host.files.openInput job.input = .content (Utf8.encode text))
    (takes : host.Takes job.output) :
    let report := assembleText .standard text
    let faults := report.diagnostics.length
    let summary := Listing.text report false
    let outcome := run (request arguments) host none
    (job.run host).result = .ok report ∧
    (outcome.status = 0 ↔ report.diagnostics = []) ∧
    (outcome.status = 0 ↔ report.hasFaults = false) ∧
    (outcome.status = 0 ↔ "Complete Symbol Table:".toList <+: summary.toList) ∧
    (report.diagnostics = [] → outcome.stderr = "") ∧
    (report.diagnostics ≠ [] → outcome.status = 1 ∧
      outcome.stderr = Ending.countText faults ++ "\n" ∧ Text.Unbroken (Ending.countText faults) ∧
      ((Text.pieces summary).takeWhile fun line => !line.isEmpty).length = faults) ∧
    host.Delivered (Listing.text report job.full) job.output outcome.files outcome.stdout ∧
    (report.diagnostics.map Diagnostic.line).Pairwise (· ≤ ·) ∧
    ∀ diagnostic ∈ report.diagnostics, 1 ≤ diagnostic.line ∧
      diagnostic.line ≤ (Text.lines text).length := by
  intro report faults summary outcome
  have isOutcome : outcome = run (.job job) host none := by rw [← parsed]
  rcases Job.run_of_takes readable takes with ⟨isReport, delivered⟩
  have correct : report.diagnostics = [] → outcome.status = 0 ∧ outcome.stderr = "" := by
    rw [isOutcome]
    exact run_of_nil isReport
  have faulty : report.diagnostics ≠ [] → outcome.status = 1 ∧
      outcome.stderr = Ending.countText faults ++ "\n" := by
    rw [isOutcome]
    exact run_of_ne_nil isReport
  have status : outcome.status = 0 ↔ report.diagnostics = [] := by
    refine ⟨?_, fun isNil => (correct isNil).1⟩
    intro zero
    by_contra filled
    rw [(faulty filled).1] at zero
    cases zero
  refine ⟨isReport, status, ?_, ?_, fun isNil => (correct isNil).2, ?_, ?_, diagnostics_ordered _ _,
    fun _ => line_of_diagnostic⟩
  · rw [status, Report.hasFaults_eq_false_iff]
  · rw [status, Listing.title_prefix_iff]
  · intro filled
    rcases faulty filled with ⟨one, told⟩
    exact ⟨one, told, Ending.unbroken_countText faults, Listing.length_takeWhile_pieces filled⟩
  · rw [isOutcome]
    exact delivered

/-- A program with two faults in its first line and one in its second, whose full listing
replaces an old file. -/
theorem verdicts_agree_three_faults :
    let text := "ORIGIN 5 / 0 + 3 START\nEQU Y"
    let host : Host :=
      ⟨⟨[([], .directory), ([[0x69]], .file (Utf8.encode text)), ([[0x6F]], .file [0x21])], []⟩,
        true⟩
    let arguments : List FileName := [.ofString "--list", .ofString "i", .ofString "-oo"]
    let job : Job := ⟨.ofString "i", some (.ofString "o"), true⟩
    let report := assembleText .standard text
    let outcome := run (.ofArguments arguments) host (Log.threshold (some "off"))
    Request.ofArguments arguments = .job job ∧
      host.files.openInput job.input = .content (Utf8.encode text) ∧
      host.Takes job.output ∧ report.diagnostics.map Diagnostic.line = [1, 1, 2] ∧
      outcome.status = 1 ∧ outcome.stderr = "the program contains 3 errors\n" ∧
        report.hasFaults = true ∧
      ¬ "Complete Symbol Table:".toList <+: (Listing.text report false).toList ∧
      host.Delivered (Listing.text report true) job.output outcome.files outcome.stdout := by
  intro text host arguments job report outcome
  have parsed : Request.ofArguments arguments = .job job := by decide +kernel
  have readable : host.files.openInput job.input = .content (Utf8.encode text) := by decide +kernel
  have accepts : host.files.Accepts (.ofString "o") [[0x6F]] :=
    FileSystem.createPlace_eq_ok_iff.mp (by decide +kernel)
  have takes : host.Takes job.output := .file accepts (by decide +kernel)
  have lines : report.diagnostics.map Diagnostic.line = [1, 1, 2] := by decide +kernel
  have count : report.diagnostics.length = 3 := by
    rw [← List.length_map Diagnostic.line, lines]
    rfl
  have faulty : report.diagnostics ≠ [] := List.ne_nil_of_length_eq_add_one count
  have unlogged : outcome = run (.ofArguments arguments) host none :=
    congrArg (run (.ofArguments arguments) host)
      (show Log.threshold (some "off") = none by decide +kernel)
  rw [unlogged]
  rcases verdicts_agree Request.ofArguments parsed readable takes with
    ⟨_, status, byLines, byTitle, _, told, delivered, _⟩
  have notZero : outcome.status ≠ 0 := mt status.mp faulty
  refine ⟨parsed, readable, takes, lines, (told faulty).1, ?_,
    Bool.eq_true_of_not_eq_false (mt byLines.mpr notZero), mt byTitle.mpr notZero, delivered⟩
  rw [(told faulty).2.1, count]
  decide +kernel

end Command
end FirstPass
