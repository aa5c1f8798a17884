import FirstPass.Proofs.Runs

namespace FirstPass

/-!
Programs that go on.

The first pass never looks ahead: what it found after some lines is the
beginning of what it finds after these and more.  Only the values of symbols
can change later.  A report holds everything that is needed to go on, which is
the symbol table, the location counter and the number of lines; so a program can
be continued from its report, line by line.
-/

namespace Report

/-- The state at the end of a report. -/
def state (report : Report) : State :=
  ⟨report.symbols, report.counter⟩

/-- The report after one more line, which is carried out from the state at the
end of the report. -/
def extend (set : InstructionSet) (report : Report) (source : String) : Report :=
  let step := report.state.step set (report.lines.length + 1) source
  ⟨report.lines ++ [step.line], step.state.symbols, step.state.counter⟩

/-- A report is the beginning of another one: its lines come first, and so do
the names of its symbols. -/
structure Begins (front whole : Report) : Prop where
  lines : front.lines <+: whole.lines
  names : front.symbols.order <+: whole.symbols.order

theorem Begins.refl (report : Report) : report.Begins report where
  lines := List.prefix_refl _
  names := List.prefix_refl _

theorem Begins.trans {front middle whole : Report} (first : front.Begins middle)
    (second : middle.Begins whole) : front.Begins whole where
  lines := first.lines.trans second.lines
  names := first.names.trans second.names

theorem Begins.diagnostics {front whole : Report} (begins : front.Begins whole) :
    front.diagnostics <+: whole.diagnostics := by
  rcases begins.lines with ⟨added, isWhole⟩
  unfold Report.diagnostics
  rw [← isWhole, List.flatMap_append]
  exact List.prefix_append _ _

/-- One more line adds to a report and takes nothing back. -/
theorem begins_extend (set : InstructionSet) (report : Report) (source : String) :
    report.Begins (report.extend set source) where
  lines := List.prefix_append _ _
  names := Statement.order_grows_executeAll (Statement.ofLine set source) report.state

theorem length_lines_extend (set : InstructionSet) (report : Report) (source : String) :
    (report.extend set source).lines.length = report.lines.length + 1 := by
  rw [extend, List.length_append, List.length_singleton]

theorem begins_foldl_extend (set : InstructionSet) (report : Report) (lines : List String) :
    report.Begins (lines.foldl (extend set) report) := by
  induction lines generalizing report with
  | nil => exact .refl report
  | cons source rest ih =>
      exact (begins_extend set report source).trans (ih (report.extend set source))

theorem length_lines_foldl_extend (set : InstructionSet) (report : Report) (lines : List String) :
    (lines.foldl (extend set) report).lines.length = report.lines.length + lines.length := by
  induction lines generalizing report with
  | nil => rfl
  | cons source rest ih =>
      rw [List.foldl_cons, ih, length_lines_extend, List.length_cons]
      omega

/-- To continue a report line by line is to carry out the lines from the state at
its end, numbered from where the report stops. -/
theorem foldl_extend (set : InstructionSet) (report : Report) (lines : List String) :
    lines.foldl (extend set) report =
      ⟨report.lines ++ (report.state.steps set (report.lines.length + 1) lines).map Step.line,
        (State.run set report.state lines).symbols,
        (State.run set report.state lines).counter⟩ := by
  induction lines generalizing report with
  | nil =>
      simp only [List.foldl_nil, State.steps, List.map_nil, List.append_nil]
      rfl
  | cons source rest ih =>
      rw [List.foldl_cons, ih, length_lines_extend]
      simp only [State.steps, List.map_cons, extend, List.append_assoc, List.singleton_append]
      rfl

end Report

/-- The first pass continues the empty report. -/
theorem assemble_eq_foldl_extend (set : InstructionSet) (lines : List String) :
    assemble set lines = lines.foldl (Report.extend set) {} := by
  rw [Report.foldl_extend]
  unfold assemble transcribe
  simp only [State.afterSteps_steps]
  rfl

theorem length_lines_assemble (set : InstructionSet) (lines : List String) :
    (assemble set lines).lines.length = lines.length := by
  rw [assemble_eq_foldl_extend, Report.length_lines_foldl_extend]
  exact Nat.zero_add lines.length

/-- No lookahead.  The report of the first lines of a program is the beginning of
the report of the whole program: its lines are the first ones, with the location
counter where the first lines leave it, and its diagnostics and the names of its
symbols come first.  The whole report is the first one, continued line by line. -/
theorem assemble_append (set : InstructionSet) (first second : List String) :
    let front := assemble set first
    let whole := assemble set (first ++ second)
    front.lines.length = first.length ∧ whole.lines.take first.length = front.lines ∧
    whole.counterBefore first.length = front.counter ∧
    front.diagnostics <+: whole.diagnostics ∧
    front.symbols.toList.map Prod.fst <+: whole.symbols.toList.map Prod.fst ∧
    whole = second.foldl (Report.extend set) front := by
  intro front whole
  have continued : whole = second.foldl (Report.extend set) front := by
    rw [show whole = (first ++ second).foldl (Report.extend set) {} from
      assemble_eq_foldl_extend set _, List.foldl_append, ← assemble_eq_foldl_extend]
  have begins : front.Begins whole := continued ▸ Report.begins_foldl_extend set front second
  have count : front.lines.length = first.length := length_lines_assemble set first
  refine ⟨count, ?_, ?_, begins.diagnostics, ?_, continued⟩
  · rw [← count]
    exact (List.prefix_iff_eq_take.mp begins.lines).symm
  · have within : first.length ≤ (first ++ second).length := by
      rw [List.length_append]
      exact Nat.le_add_right _ _
    rw [counterBefore_assemble set (first ++ second) within, List.take_left, ← counter_assemble]
  · rw [(sound_assemble set first).map_fst_toList,
      (sound_assemble set (first ++ second)).map_fst_toList]
    exact begins.names

end FirstPass
