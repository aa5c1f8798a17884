import FirstPass.Proofs.Lexing
import FirstPass.Proofs.SourceFiles

namespace FirstPass

/-!
Blanks and line endings.

The first pass looks at the tokens of a line only.  So a program can be written
with other blanks between its words and at the ends of its lines, and its report
stays the same.  A carriage return before a line feed is such a blank at the end of
a line, or it belongs to the line ending; in neither case does it matter.  Nor does
it matter whether a line feed ends the last line.
-/

/-! ## Runs by tokens -/

theorem State.steps_of_scan {set : InstructionSet} {one other : List String}
    (same : one.map Token.scan = other.map Token.scan) (state : State) (number : Nat) :
    state.steps set number one = state.steps set number other := by
  induction one generalizing other state number with
  | nil =>
      rw [List.map_eq_nil_iff.mp same.symm]
  | cons line rest ih =>
      cases other with
      | nil => cases same
      | cons otherLine otherRest =>
          rcases List.cons.inj same with ⟨here, later⟩
          have step : state.step set number line = state.step set number otherLine := by
            unfold State.step Statement.ofLine
            rw [here]
          rw [steps, steps, step, ih later]

/-- The whole pass, down to its events, depends on the tokens of the lines only. -/
theorem transcribe_of_scan (set : InstructionSet) {one other : List String}
    (same : one.map Token.scan = other.map Token.scan) :
    transcribe set one = transcribe set other := by
  simp only [transcribe, State.steps_of_scan same]

theorem assemble_of_scan (set : InstructionSet) {one other : List String}
    (same : one.map Token.scan = other.map Token.scan) : assemble set one = assemble set other :=
  congrArg Transcript.report (transcribe_of_scan set same)

namespace Text

/-! ## Line endings -/

section Lists

variable {Item : Type} [DecidableEq Item] {lf : Item}

/-- A text is gone through from line feed to line feed. -/
theorem segments_induction (lf : Item) {Holds : List Item → Prop}
    (last : ∀ {text : List Item}, lf ∉ text → Holds text)
    (feed : ∀ {first rest : List Item}, lf ∉ first → Holds rest → Holds (first ++ lf :: rest))
    (text : List Item) : Holds text := by
  induction count : text.count lf generalizing text with
  | zero => exact last (List.count_eq_zero.mp count)
  | succ feeds ih =>
      have member : lf ∈ text := List.count_pos_iff.mp (by omega)
      rcases List.eq_append_cons_of_mem member with ⟨first, rest, isText, absent⟩
      rw [isText, List.count_append, List.count_eq_zero.mpr absent, List.count_cons_self] at count
      rw [isText]
      exact feed absent (ih rest (by omega))

/-- Put a carriage return before every line feed. -/
def addReturns (lf cr : Item) (text : List Item) : List Item :=
  text.flatMap fun item => if item = lf then [cr, lf] else [item]

theorem addReturns_of_not_mem (cr : Item) {text : List Item} (absent : lf ∉ text) :
    addReturns lf cr text = text := by
  induction text with
  | nil => rfl
  | cons item rest ih =>
      rcases not_or.mp (mt List.mem_cons.mpr absent) with ⟨different, later⟩
      rw [addReturns, List.flatMap_cons, if_neg (Ne.symm different), ← addReturns, ih later,
        List.singleton_append]

theorem addReturns_append_feed (cr : Item) {first : List Item} (absent : lf ∉ first)
    (rest : List Item) :
    addReturns lf cr (first ++ lf :: rest) = (first ++ [cr]) ++ lf :: addReturns lf cr rest := by
  have front := addReturns_of_not_mem cr absent
  unfold addReturns at front ⊢
  rw [List.flatMap_append, List.flatMap_cons, if_pos rfl, front, List.append_assoc]
  rfl

/-- Every segment but the last gets a carriage return at its end. -/
theorem splitOn_addReturns {cr : Item} (different : cr ≠ lf) (text : List Item) :
    ∃ ended last, text.splitOn lf = ended ++ [last] ∧
      (addReturns lf cr text).splitOn lf = ended.map (· ++ [cr]) ++ [last] := by
  induction text using segments_induction lf with
  | @last text absent =>
      have whole := List.splitOn_eq_singleton absent
      exact ⟨[], text, whole, by rw [addReturns_of_not_mem cr absent, whole]; rfl⟩
  | @feed first rest absent ih =>
      rcases ih with ⟨ended, last, split, splitReturns⟩
      have absentToo : lf ∉ first ++ [cr] := by
        intro member
        rcases List.mem_append.mp member with inside | isReturn
        · exact absent inside
        · exact different (List.mem_singleton.mp isReturn).symm
      refine ⟨first :: ended, last, ?_, ?_⟩
      · rw [List.splitOn_append_cons_self_of_not_mem absent, split, List.cons_append]
      · rw [addReturns_append_feed cr absent, List.splitOn_append_cons_self_of_not_mem absentToo,
          splitReturns, List.map_cons, List.cons_append]

/-- A text that does not end with a line feed has something in its last segment. -/
theorem splitOn_of_getLast? {text : List Item} {final : Item} (isFinal : text.getLast? = some final)
    (different : final ≠ lf) : ∃ ended last, text.splitOn lf = ended ++ [last] ∧ last ≠ [] := by
  induction text using segments_induction lf with
  | @last text absent =>
      refine ⟨[], text, List.splitOn_eq_singleton absent, ?_⟩
      intro empty
      rw [empty] at isFinal
      cases isFinal
  | @feed first rest absent ih =>
      have isLater : rest.getLast? = some final := by
        cases found : rest.getLast? with
        | none =>
            rw [List.getLast?_append, List.getLast?_cons, found] at isFinal
            exact absurd (Option.some.inj isFinal).symm different
        | some other =>
            rw [List.getLast?_append, List.getLast?_cons, found] at isFinal
            exact isFinal
      rcases ih isLater with ⟨ended, last, split, filled⟩
      exact ⟨first :: ended, last,
        by rw [List.splitOn_append_cons_self_of_not_mem absent, split]; rfl, filled⟩

end Lists

/-- A text with a carriage return before every line feed. -/
def withReturns (text : String) : String :=
  String.ofList (addReturns '\n' '\r' text.toList)

theorem scan_append_return (line : List Char) :
    Token.scan (String.ofList (line ++ ['\r'])) = Token.scan (String.ofList line) := by
  simp only [Token.scan, String.toList_ofList]
  rw [Token.words_append_blank (by decide), Token.words_nil, List.append_nil]

theorem scan_dropReturn (line : List Char) :
    Token.scan (String.ofList (dropReturn '\r' line)) = Token.scan (String.ofList line) := by
  by_cases returns : line.getLast? = some '\r'
  · rcases List.getLast?_eq_some_iff.mp returns with ⟨front, isLine⟩
    rw [isLine, dropReturn_append_self, scan_append_return]
  · rw [dropReturn_of_ne returns]

/-- The tokens of the lines come from the segments between the line feeds. -/
theorem map_scan_lines {text : String} {last : List Char} {ended : List (List Char)}
    (split : text.toList.splitOn '\n' = ended ++ [last]) :
    (lines text).map Token.scan = (ended.map fun segment => Token.scan (String.ofList segment)) ++
      if last = [] then [] else [Token.scan (String.ofList last)] := by
  have dropped : (Token.scan ∘ String.ofList) ∘ dropReturn '\r' =
      fun segment => Token.scan (String.ofList segment) := by
    funext segment
    exact scan_dropReturn segment
  rw [lines, splitLines_of_splitOn split, List.map_map, List.map_append, List.map_map, dropped]
  split
  · rfl
  · rfl

theorem map_scan_lines_withReturns (text : String) :
    (lines (withReturns text)).map Token.scan = (lines text).map Token.scan := by
  rcases splitOn_addReturns (show '\r' ≠ '\n' by decide) text.toList with
    ⟨ended, last, split, splitReturns⟩
  have isText : (withReturns text).toList = addReturns '\n' '\r' text.toList := String.toList_ofList
  have returned : (fun segment => Token.scan (String.ofList segment)) ∘ (· ++ ['\r']) =
      fun segment => Token.scan (String.ofList segment) := by
    funext segment
    exact scan_append_return segment
  rw [← isText] at splitReturns
  rw [map_scan_lines splitReturns, map_scan_lines split, List.map_map, returned]

theorem map_scan_lines_append_feed {text : String} {final : Char}
    (isFinal : text.toList.getLast? = some final) (different : final ≠ '\n') :
    (lines (text ++ "\n")).map Token.scan = (lines text).map Token.scan := by
  rcases splitOn_of_getLast? isFinal different with ⟨ended, last, split, filled⟩
  have splitFeed : (text ++ "\n").toList.splitOn '\n' = (ended ++ [last]) ++ [[]] := by
    rw [String.toList_append, ← split]
    exact List.splitOn_append_cons_self text.toList []
  rw [map_scan_lines splitFeed, map_scan_lines split, if_pos rfl, if_neg filled, List.map_append,
    List.append_nil]
  rfl

end Text

/-! ## Lines with other blanks -/

/-- Two lines are written with the same words, between which and around which any
blanks may stand. -/
def Respaced (line other : String) : Prop :=
  ∃ one two : Layout, one.line = line ∧ two.line = other ∧ one.words = two.words

theorem Respaced.scan_eq {line other : String} (respaced : Respaced line other) :
    Token.scan line = Token.scan other := by
  rcases respaced with ⟨one, two, isLine, isOther, sameWords⟩
  rw [← isLine, ← isOther, one.scan_line, two.scan_line, Layout.tokens, sameWords, Layout.tokens]

theorem map_scan_of_respaced {lines others : List String}
    (respaced : List.Forall₂ Respaced lines others) :
    lines.map Token.scan = others.map Token.scan := by
  induction respaced with
  | nil => rfl
  | cons here _ ih => rw [List.map_cons, List.map_cons, here.scan_eq, ih]

/-- Blanks and line endings do not matter.  A text gives the same report with a
carriage return before every line feed, whatever carriage returns it has already
and whether or not it ends with a line feed.  If it does not, a line feed can be
added.  Lines give the same report as other lines with the same words, whatever
blanks stand between the words and at the ends. -/
theorem assemble_of_respaced (set : InstructionSet) :
    (∀ body, assembleText set (Text.withReturns body) = assembleText set body) ∧
    (∀ body final, body.toList.getLast? = some final → final ≠ '\n' →
      assembleText set (body ++ "\n") = assembleText set body) ∧
    ∀ lines others, List.Forall₂ Respaced lines others →
      assemble set lines = assemble set others := by
  refine ⟨?_, ?_, ?_⟩
  · intro body
    exact assemble_of_scan set (Text.map_scan_lines_withReturns body)
  · intro body final isFinal different
    exact assemble_of_scan set (Text.map_scan_lines_append_feed isFinal different)
  · intro lines others respaced
    exact assemble_of_scan set (map_scan_of_respaced respaced)

/-- A text with all kinds of line endings and a carriage return at its end, and a
line whose last word stays a reference although a carriage return comes after it. -/
theorem assemble_of_respaced_returns :
    let body := "START 100\r\nLOOP ADD AREG X\n\n\rX STOP\r"
    let returns := "START 100\r\r\nLOOP ADD AREG X\r\n\r\n\rX STOP\r"
    let line := "LOOP STOP X"
    let other := "\tLOOP\x0b STOP\x0cX \r"
    (Text.withReturns body = returns ∧
      assembleText .standard returns = assembleText .standard body) ∧
    (body.toList.getLast? = some '\r' ∧
      assembleText .standard (body ++ "\n") = assembleText .standard body) ∧
    Respaced line other ∧ assemble .standard [line] = assemble .standard [other] := by
  intro body returns line other
  rcases assemble_of_respaced .standard with ⟨withReturns, withFeed, withBlanks⟩
  have isReturns : Text.withReturns body = returns := by decide +kernel
  have isFinal : body.toList.getLast? = some '\r' := by decide +kernel
  have respaced : Respaced line other := by
    let first : Word := ⟨"LOOP", by decide +kernel⟩
    let second : Word := ⟨"STOP", by decide +kernel⟩
    let third : Word := ⟨"X", by decide +kernel⟩
    let plain : Layout := .filled ⟨[], by decide⟩ first
      [(⟨⟨[' '], by decide⟩, by decide⟩, second), (⟨⟨[' '], by decide⟩, by decide⟩, third)]
        ⟨[], by decide⟩
    let spaced : Layout := .filled ⟨['\t'], by decide⟩ first
      [(⟨⟨['\x0b', ' '], by decide⟩, by decide⟩, second),
        (⟨⟨['\x0c'], by decide⟩, by decide⟩, third)]
      ⟨[' ', '\r'], by decide⟩
    exact ⟨plain, spaced, by decide +kernel, by decide +kernel, rfl⟩
  exact ⟨⟨isReturns, isReturns ▸ withReturns body⟩,
    ⟨isFinal, withFeed body '\r' isFinal (by decide)⟩, respaced,
    withBlanks [line] [other] (.cons respaced .nil)⟩

end FirstPass
