import FirstPass.Proofs.SourceFiles
import Mathlib.Data.List.DropRight

namespace FirstPass

/-!
What a job does to the files.

A job reads its source to the end before it creates its output, so a source that
cannot be read leaves the files as they were, and an output that replaces the
source is made from the old content.  A job with an output file changes at most
one place, the one that the name of the output leads to.  Whether it succeeds is
decided by the two names and the files alone, never by the program.
-/

namespace FileSystem

variable {files after : FileSystem} {name : FileName} {place : Place}

/-! ## Names and places -/

/-- A name leads to a place: it can be a path, and everything that it passes
through is a directory. -/
structure LeadsTo (files : FileSystem) (name : FileName) (place : Place) : Prop where
  isPath : nameCause? name = none
  reaches : files.walk (files.base name) (steps name) = .ok place

/-- A file can be created or replaced: its name leads to the place and does not
end in a slash, and no directory stands there. -/
structure Accepts (files : FileSystem) (name : FileName) (place : Place) : Prop where
  leads : files.LeadsTo name place
  named : (steps name).getLast? ≠ some []
  noDirectory : files.get? place ≠ some .directory

/-- Two file systems differ at most at one place. -/
structure SameExcept (files after : FileSystem) (place : Place) : Prop where
  home : after.home = files.home
  others : ∀ other, other ≠ place → after.get? other = files.get? other

theorem SameExcept.refl (files : FileSystem) (place : Place) : files.SameExcept files place where
  home := rfl
  others := fun _ _ => rfl

theorem sameExcept_put (files : FileSystem) (place : Place) (node : Node) :
    files.SameExcept (files.put place node) place where
  home := rfl
  others := by
    intro other different
    rw [get?_put, if_neg different]

/-- A step of a walk that succeeds starts at a directory. -/
theorem walk_cons_eq_ok_iff {start finish : Place} {step : List UInt8} {rest : List (List UInt8)} :
    files.walk start (step :: rest) = .ok finish ↔
      files.get? start = some .directory ∧ step.length ≤ 255 ∧
        files.walk (enter start step) rest = .ok finish := by
  rw [walk]
  cases files.get? start with
  | none => simp
  | some node =>
      cases node with
      | file content => simp
      | device device => simp
      | directory =>
          by_cases long : 255 < step.length
          · simp [long, Nat.not_le.mpr long]
          · simp [long, Nat.not_lt.mp long]

/-- A walk passes through directories only, so a place without a directory has no
part in it. -/
theorem walk_of_sameExcept (same : files.SameExcept after place)
    (noDirectory : files.get? place ≠ some .directory) {start finish : Place}
    {path : List (List UInt8)} (reaches : files.walk start path = .ok finish) :
    after.walk start path = .ok finish := by
  induction path generalizing start with
  | nil => exact reaches
  | cons step rest ih =>
      rcases walk_cons_eq_ok_iff.mp reaches with ⟨isDirectory, short, later⟩
      have different : start ≠ place := fun isPlace => noDirectory (isPlace ▸ isDirectory)
      exact walk_cons_eq_ok_iff.mpr ⟨(same.others start different).trans isDirectory, short,
        ih later⟩

/-- What a walk passes through is a directory that can be walked to. -/
theorem walk_front {start finish : Place} {front rest : List (List UInt8)} {step : List UInt8}
    (reaches : files.walk start (front ++ step :: rest) = .ok finish) :
    ∃ middle, files.walk start (front ++ [[]]) = .ok middle := by
  induction front generalizing start with
  | nil =>
      rcases walk_cons_eq_ok_iff.mp reaches with ⟨isDirectory, _, _⟩
      exact ⟨_, walk_cons_eq_ok_iff.mpr ⟨isDirectory, Nat.zero_le _, rfl⟩⟩
  | cons first front ih =>
      rcases walk_cons_eq_ok_iff.mp reaches with ⟨isDirectory, short, later⟩
      rcases ih later with ⟨middle, walked⟩
      exact ⟨middle, walk_cons_eq_ok_iff.mpr ⟨isDirectory, short, walked⟩⟩

theorem LeadsTo.of_sameExcept {changed : Place} (leads : files.LeadsTo name place)
    (same : files.SameExcept after changed) (noDirectory : files.get? changed ≠ some .directory) :
    after.LeadsTo name place where
  isPath := leads.isPath
  reaches := by
    have sameBase : after.base name = files.base name := by rw [base, base, same.home]
    rw [sameBase]
    exact walk_of_sameExcept same noDirectory leads.reaches

/-! ## Where a file can be created -/

/-- The steps of a path without the empty ones at its end. -/
def named (path : List (List UInt8)) : List (List UInt8) :=
  path.rdropWhile List.isEmpty

theorem named_eq_self_iff {path : List (List UInt8)} :
    named path = path ↔ path.getLast? ≠ some [] := by
  rw [named, List.rdropWhile_eq_self_iff]
  cases path with
  | nil => simp
  | cons step rest => simp [List.getLast?_eq_some_getLast (List.cons_ne_nil step rest)]

theorem length_named_lt_iff {path : List (List UInt8)} :
    (named path).length < path.length ↔ path.getLast? = some [] := by
  have front : named path <+: path := List.rdropWhile_prefix List.isEmpty path
  constructor
  · intro shorter
    by_contra filled
    rw [named_eq_self_iff.mpr filled] at shorter
    exact Nat.lt_irrefl _ shorter
  · intro slash
    refine Nat.lt_of_le_of_ne front.length_le ?_
    intro sameLength
    exact named_eq_self_iff.mp (front.eq_of_length sameLength) slash

theorem createPlace_of_slash (isPath : nameCause? name = none)
    (slash : (steps name).getLast? = some []) {middle : Place}
    (walked : files.walk (files.base name) ((named (steps name)).dropLast ++ [[]]) = .ok middle) :
    files.createPlace name = .error (.system .isADirectory) := by
  have shorter := length_named_lt_iff.mpr slash
  unfold named List.rdropWhile at shorter walked
  simp only [createPlace, isPath, if_pos shorter, walked]

theorem createPlace_ne_ok_of_slash (isPath : nameCause? name = none)
    (slash : (steps name).getLast? = some []) : files.createPlace name ≠ .ok place := by
  have shorter := length_named_lt_iff.mpr slash
  unfold named List.rdropWhile at shorter
  simp only [createPlace, isPath, if_pos shorter]
  split <;> simp

theorem createPlace_of_reached (leads : files.LeadsTo name place)
    (filled : (steps name).getLast? ≠ some []) :
    files.createPlace name =
      if files.get? place = some .directory then .error (.system .isADirectory) else .ok place := by
  have whole := named_eq_self_iff.mpr filled
  unfold named List.rdropWhile at whole
  simp only [createPlace, leads.isPath, whole, Nat.lt_irrefl, if_false, leads.reaches]
  split
  · rename_i isDirectory
    rw [if_pos isDirectory]
  · rename_i noDirectory
    rw [if_neg noDirectory]

theorem leadsTo_of_createPlace (found : files.createPlace name = .ok place) :
    files.LeadsTo name place := by
  cases isPath : nameCause? name with
  | some cause => simp [createPlace, isPath] at found
  | none =>
      have filled : (steps name).getLast? ≠ some [] :=
        fun slash => createPlace_ne_ok_of_slash isPath slash found
      have whole := named_eq_self_iff.mpr filled
      unfold named List.rdropWhile at whole
      cases walked : files.walk (files.base name) (steps name) with
      | error cause => simp [createPlace, isPath, whole, walked] at found
      | ok reached =>
          rw [createPlace_of_reached ⟨isPath, walked⟩ filled] at found
          split at found
          · cases found
          · cases found
            exact ⟨isPath, walked⟩

/-- A place is found for a file exactly if the file can be created or replaced
there. -/
theorem createPlace_eq_ok_iff : files.createPlace name = .ok place ↔ files.Accepts name place := by
  constructor
  · intro found
    have leads := leadsTo_of_createPlace found
    have filled : (steps name).getLast? ≠ some [] :=
      fun slash => createPlace_ne_ok_of_slash leads.isPath slash found
    refine ⟨leads, filled, ?_⟩
    intro isDirectory
    rw [createPlace_of_reached leads filled, if_pos isDirectory] at found
    cases found
  · intro accepts
    rw [createPlace_of_reached accepts.leads accepts.named, if_neg accepts.noDirectory]

/-- A name that leads to a directory is refused as a directory, with or without a
slash at its end. -/
theorem createPlace_of_directory (leads : files.LeadsTo name place)
    (isDirectory : files.get? place = some .directory) :
    files.createPlace name = .error (.system .isADirectory) := by
  by_cases slash : (steps name).getLast? = some []
  · have shorter := length_named_lt_iff.mpr slash
    have inner : (named (steps name)).dropLast <+: named (steps name) := List.dropLast_prefix _
    have outer : named (steps name) <+: steps name :=
      List.rdropWhile_prefix List.isEmpty (steps name)
    rcases inner.trans outer with ⟨rest, split⟩
    have goesOn : rest ≠ [] := by
      rintro rfl
      have sameLength := congrArg List.length split
      simp only [List.append_nil, List.length_dropLast] at sameLength
      omega
    rcases List.exists_cons_of_ne_nil goesOn with ⟨step, later, isRest⟩
    have reaches := leads.reaches
    rw [← split, isRest] at reaches
    rcases walk_front reaches with ⟨middle, walked⟩
    exact createPlace_of_slash leads.isPath slash walked
  · rw [createPlace_of_reached leads slash, if_pos isDirectory]

/-! ## Writing and reading -/

/-- What a file system is after a file was written: it differs at most at a place
where the file could be created, and there the name leads to the new file.  Where
a device stands, nothing changes at all. -/
structure Written (files : FileSystem) (name : FileName) (content : List UInt8) (place : Place)
    (after : FileSystem) : Prop where
  accepts : files.Accepts name place
  same : files.SameExcept after place
  holds : (after.LeadsTo name place ∧ after.get? place = some (.file content)) ∨
    (∃ device, files.get? place = some (.device device)) ∧ after = files

theorem Accepts.written_put (accepts : files.Accepts name place) (content : List UInt8) :
    files.Written name content place (files.put place (.file content)) where
  accepts := accepts
  same := sameExcept_put files place (.file content)
  holds := by
    have same := sameExcept_put files place (.file content)
    exact Or.inl ⟨accepts.leads.of_sameExcept same accepts.noDirectory,
      by rw [get?_put, if_pos rfl]⟩

theorem Accepts.written_device (accepts : files.Accepts name place) (content : List UInt8)
    {device : Device} (isDevice : files.get? place = some (.device device)) :
    files.Written name content place files where
  accepts := accepts
  same := .refl files place
  holds := Or.inr ⟨⟨device, isDevice⟩, rfl⟩

/-- Writing succeeds where a file is accepted, unless a full device stands there. -/
theorem write_cases (files : FileSystem) (name : FileName) (content : List UInt8) :
    (∃ cause, files.write name content = .error cause ∧
      ∀ place, files.Accepts name place → files.get? place = some (.device .full)) ∨
    ∃ place after, files.write name content = .ok after ∧
      files.Written name content place after := by
  cases created : files.createPlace name with
  | error cause =>
      refine Or.inl ⟨cause, by simp only [write, created], ?_⟩
      intro place accepts
      rw [createPlace_eq_ok_iff.mpr accepts] at created
      cases created
  | ok place =>
      have accepts := createPlace_eq_ok_iff.mp created
      cases before : files.get? place with
      | none =>
          exact Or.inr ⟨place, _, by simp only [write, created, before],
            accepts.written_put content⟩
      | some node =>
          cases node with
          | directory => exact absurd before accepts.noDirectory
          | file old =>
              exact Or.inr ⟨place, _, by simp only [write, created, before],
                accepts.written_put content⟩
          | device device =>
              have kept := accepts.written_device content before
              cases device with
              | null => exact Or.inr ⟨place, files, by simp only [write, created, before], kept⟩
              | full =>
                  by_cases empty : content.isEmpty = true
                  · exact Or.inr ⟨place, files,
                      by simp only [write, created, before, empty, if_true], kept⟩
                  · refine Or.inl ⟨.system .noSpace, by simp [write, created, before, empty], ?_⟩
                    intro other acceptsOther
                    rw [createPlace_eq_ok_iff.mpr acceptsOther] at created
                    cases created
                    exact before

theorem write_of_directory (leads : files.LeadsTo name place)
    (isDirectory : files.get? place = some .directory) (content : List UInt8) :
    files.write name content = .error (.system .isADirectory) := by
  simp only [write, createPlace_of_directory leads isDirectory]

end FileSystem

/-- A source is read as the lines of a text that the opened file encodes, or else
reading fails. -/
theorem SourceFile.read_cases (name : FileName) (opened : Opened) :
    (∃ text, opened = .content (Utf8.encode text) ∧ read name opened = .ok (Text.lines text)) ∨
    (∀ text, opened ≠ .content (Utf8.encode text)) ∧
      ∃ line cause, read name opened = .error (.input name line cause) := by
  cases opened with
  | refused cause => exact Or.inr ⟨fun _ => Opened.noConfusion, none, cause, rfl⟩
  | unreadable cause => exact Or.inr ⟨fun _ => Opened.noConfusion, some 1, cause, rfl⟩
  | content bytes =>
      by_cases valid : Utf8.Valid bytes
      · rcases valid with ⟨text, isEncoding⟩
        rw [← isEncoding]
        exact Or.inl ⟨text, rfl, read_encode name text⟩
      · rcases read_of_not_valid name valid with ⟨front, _, _, _, _, _, failure⟩
        refine Or.inr ⟨?_, _, _, failure⟩
        intro text isContent
        exact valid ⟨text, (Opened.content.inj isContent).symm⟩

namespace Job

/-! ## Jobs with an output file -/

section Outcomes

variable {host : Host} {input output : FileName} {full : Bool} {text : String}

theorem run_of_read_error {failure : Failure}
    (failed : SourceFile.read input (host.files.openInput input) = .error failure) :
    (run ⟨input, some output, full⟩ host).result = .error failure ∧
      (run ⟨input, some output, full⟩ host).files = host.files := by
  simp only [run, failed, and_self]

theorem run_of_write_error {cause : Cause}
    (readable : host.files.openInput input = .content (Utf8.encode text))
    (failed : host.files.write output
      (Utf8.encode (Listing.text (assembleText .standard text) full)) = .error cause) :
    (run ⟨input, some output, full⟩ host).result = .error (.output output cause) ∧
      (run ⟨input, some output, full⟩ host).files = host.files := by
  unfold assembleText assemble at failed
  simp only [run, readable, SourceFile.read_encode, Host.write, failed, and_self]

theorem run_of_written {after : FileSystem}
    (readable : host.files.openInput input = .content (Utf8.encode text))
    (written : host.files.write output
      (Utf8.encode (Listing.text (assembleText .standard text) full)) = .ok after) :
    (run ⟨input, some output, full⟩ host).result = .ok (assembleText .standard text) ∧
      (run ⟨input, some output, full⟩ host).files = after := by
  unfold assembleText assemble at written ⊢
  simp only [run, readable, SourceFile.read_encode, Host.write, written, and_self]

end Outcomes

/-- What a job does to the files.  If it fails, it leaves them as they were.  If it
succeeds, its report is for the text that the input held before, and the listing
of the report is what the output holds afterwards.  A readable text is enough for
success, whatever its faults, if the output can be created; if it cannot, as when
it is a directory, then the job fails on the output.  Without a readable text the
job fails on the input. -/
theorem files_after_run (host : Host) (input output : FileName) (full : Bool) :
    let delivery := run ⟨input, some output, full⟩ host
    (∀ failure, delivery.result = .error failure → delivery.files = host.files) ∧
    (∀ report, delivery.result = .ok report → ∃ text place,
      host.files.openInput input = .content (Utf8.encode text) ∧
        report = assembleText .standard text ∧
      host.files.Written output (Utf8.encode (Listing.text report full)) place delivery.files) ∧
    (∀ text, host.files.openInput input = .content (Utf8.encode text) →
      (∀ place, host.files.Accepts output place → host.files.get? place ≠ some (.device .full) →
        delivery.result = .ok (assembleText .standard text)) ∧
      ((∀ place, ¬ host.files.Accepts output place) →
        ∃ cause, delivery.result = .error (.output output cause)) ∧
      ∀ place, host.files.LeadsTo output place → host.files.get? place = some .directory →
        delivery.result = .error (.output output (.system .isADirectory))) ∧
    ((∀ text, host.files.openInput input ≠ .content (Utf8.encode text)) →
      ∃ line cause, delivery.result = .error (.input input line cause)) := by
  intro delivery
  have outputCases := fun text => host.files.write_cases output
    (Utf8.encode (Listing.text (assembleText .standard text) full))
  refine ⟨?_, ?_, ?_, ?_⟩
  · intro failure isFailure
    rcases SourceFile.read_cases input (host.files.openInput input) with
      ⟨text, readable, _⟩ | ⟨_, _, _, failed⟩
    · rcases outputCases text with ⟨_, failed, _⟩ | ⟨_, _, written, _⟩
      · exact (run_of_write_error readable failed).2
      · rw [(run_of_written readable written).1] at isFailure
        cases isFailure
    · exact (run_of_read_error failed).2
  · intro report isReport
    rcases SourceFile.read_cases input (host.files.openInput input) with
      ⟨text, readable, _⟩ | ⟨_, _, _, failed⟩
    · rcases outputCases text with ⟨_, failed, _⟩ | ⟨place, after, written, isWritten⟩
      · rw [(run_of_write_error readable failed).1] at isReport
        cases isReport
      · rcases run_of_written readable written with ⟨isResult, isAfter⟩
        rw [isResult] at isReport
        cases isReport
        exact ⟨text, place, readable, rfl, isAfter ▸ isWritten⟩
    · rw [(run_of_read_error failed).1] at isReport
      cases isReport
  · intro text readable
    refine ⟨?_, ?_, ?_⟩
    · intro place accepts room
      rcases outputCases text with ⟨_, _, onlyFull⟩ | ⟨_, _, written, _⟩
      · exact absurd (onlyFull place accepts) room
      · exact (run_of_written readable written).1
    · intro nowhere
      rcases outputCases text with ⟨cause, failed, _⟩ | ⟨place, _, _, isWritten⟩
      · exact ⟨cause, (run_of_write_error readable failed).1⟩
      · exact absurd isWritten.accepts (nowhere place)
    · intro place leads isDirectory
      exact (run_of_write_error readable (FileSystem.write_of_directory leads isDirectory _)).1
  · intro unreadable
    rcases SourceFile.read_cases input (host.files.openInput input) with
      ⟨text, readable, _⟩ | ⟨_, line, cause, failed⟩
    · exact absurd readable (unreadable text)
    · exact ⟨line, cause, (run_of_read_error failed).1⟩

/-- A program with a fault whose listing replaces it under another name, and the
same program with a directory as output. -/
theorem files_after_run_in_place :
    let text := "ORIGIN LATER\nSTART 5\nX STOP"
    let files : FileSystem :=
      ⟨[([], .directory), ([[0x64]], .directory), ([[0x69]], .file (Utf8.encode text))], []⟩
    let source : FileName := .ofString "i"
    let detour : FileName := .ofString "d/../i"
    let directory : FileName := .ofString "d/"
    let report := assembleText .standard text
    let replacing := run ⟨source, some detour, false⟩ ⟨files, false⟩
    let failing := run ⟨source, some directory, false⟩ ⟨files, false⟩
    files.openInput source = .content (Utf8.encode text) ∧ report.hasFaults = true ∧
      files.Accepts detour [[0x69]] ∧ replacing.result = .ok report ∧
      replacing.files.get? [[0x69]] = some (.file (Utf8.encode (Listing.text report false))) ∧
      files.LeadsTo directory [[0x64]] ∧
        failing.result = .error (.output directory (.system .isADirectory)) ∧
      failing.files = files := by
  intro text files source detour directory report replacing failing
  have readable : files.openInput source = .content (Utf8.encode text) := by decide +kernel
  have accepts : files.Accepts detour [[0x69]] :=
    FileSystem.createPlace_eq_ok_iff.mp (by decide +kernel)
  have leads : files.LeadsTo directory [[0x64]] := ⟨by decide +kernel, by decide +kernel⟩
  rcases files_after_run ⟨files, false⟩ source detour false with ⟨_, success, reading, _⟩
  rcases files_after_run ⟨files, false⟩ source directory false with ⟨unchanged, _, readingAgain, _⟩
  have isReport : replacing.result = .ok report :=
    (reading text readable).1 [[0x69]] accepts (by decide +kernel)
  have isFailure : failing.result = .error (.output directory (.system .isADirectory)) :=
    (readingAgain text readable).2.2 [[0x64]] leads (by decide +kernel)
  rcases success report isReport with ⟨_, place, _, _, written⟩
  have samePlace : place = [[0x69]] :=
    Except.ok.inj ((FileSystem.createPlace_eq_ok_iff.mpr written.accepts).symm.trans
      (FileSystem.createPlace_eq_ok_iff.mpr accepts))
  subst samePlace
  have replaced : replacing.files.get? [[0x69]] =
      some (.file (Utf8.encode (Listing.text report false))) := by
    rcases written.holds with ⟨_, stands⟩ | ⟨⟨device, isDevice⟩, _⟩
    · exact stands
    · cases isDevice
  exact ⟨readable, by decide +kernel, accepts, isReport, replaced, leads, isFailure,
    unchanged _ isFailure⟩

end Job
end FirstPass
