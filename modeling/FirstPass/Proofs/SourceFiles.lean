import FirstPass.Host.Job
import FirstPass.Proofs.Utf8
import Mathlib.Data.List.Induction
import Mathlib.Data.Nat.Find

namespace FirstPass

/-!
Source files and texts.

A source file is cut into lines as bytes, and each line is decoded by itself.
That gives the same lines as decoding the whole file first and then cutting the
text: the two bytes that end a line are part of no longer encoded character.
For the same reason a file is UTF-8 if and only if each of its lines is.
-/

namespace Text

/-! ## Cutting and encoding -/

section Lists
variable {Item : Type} [DecidableEq Item] {lf cr : Item}

theorem splitOn_append_of_not_mem {front : List Item} (absent : lf ∉ front) (rest : List Item) :
    (front ++ rest).splitOn lf = (rest.splitOn lf).modifyHead (front ++ ·) := by
  induction front with
  | nil =>
      rw [List.nil_append]
      cases rest.splitOn lf <;> rfl
  | cons first front ih =>
      rcases not_or.mp (mt List.mem_cons.mpr absent) with ⟨different, later⟩
      have other : (first == lf) = false := beq_eq_false_iff_ne.mpr fun same => different same.symm
      rw [List.cons_append, List.splitOn_cons_eq_if_modifyHead, other, if_neg Bool.false_ne_true,
        ih later]
      cases rest.splitOn lf <;> rfl

theorem splitOn_cons_self (rest : List Item) : (lf :: rest).splitOn lf = [] :: rest.splitOn lf :=
  List.splitOn_append_cons_self [] rest

theorem length_splitOn (items : List Item) : (items.splitOn lf).length = items.count lf + 1 := by
  induction items with
  | nil => rfl
  | cons first rest ih =>
      rw [List.splitOn_cons_eq_if_modifyHead]
      by_cases same : first = lf
      · subst same
        simp [ih]
      · simp [same, ih]

theorem dropReturn_append_self (line : List Item) : dropReturn cr (line ++ [cr]) = line := by
  rw [dropReturn, List.getLast?_concat, if_pos rfl, List.dropLast_concat]

theorem dropReturn_of_ne {line : List Item} (other : line.getLast? ≠ some cr) :
    dropReturn cr line = line :=
  if_neg other

/-- The lines come from what stands between the line feeds. -/
theorem splitLines_of_splitOn {text last : List Item} {ended : List (List Item)}
    (split : text.splitOn lf = ended ++ [last]) :
    splitLines lf cr text = ended.map (dropReturn cr) ++ if last = [] then [] else [last] := by
  simp only [splitLines, split, List.dropLast_concat, List.getLast?_concat]
  cases last with
  | nil => rw [if_pos rfl, List.append_nil]
  | cons first rest => rw [if_neg (List.cons_ne_nil first rest)]

theorem exists_splitOn (lf : Item) (text : List Item) :
    ∃ ended last, text.splitOn lf = ended ++ [last] :=
  ⟨_, _, (List.dropLast_append_getLast (List.splitOn_ne_nil lf text)).symm⟩

end Lists

section Encoding
variable {byte : UInt8} {sign : Char}

theorem splitOn_encoding (marks : Utf8.Marks byte sign) (chars : List Char) :
    (chars.flatMap String.utf8EncodeChar).splitOn byte =
      (chars.splitOn sign).map (List.flatMap String.utf8EncodeChar) := by
  induction chars with
  | nil => rfl
  | cons c rest ih =>
      by_cases same : c = sign
      · subst same
        rw [List.flatMap_cons, marks.alone, List.singleton_append, splitOn_cons_self,
          splitOn_cons_self, ih, List.map_cons, List.flatMap_nil]
      · have absent : byte ∉ String.utf8EncodeChar c := fun member => same (marks.only c member)
        have different : sign ∉ [c] := fun member => same (List.mem_singleton.mp member).symm
        rw [List.flatMap_cons, splitOn_append_of_not_mem absent, ih, ← List.singleton_append,
          splitOn_append_of_not_mem different]
        cases rest.splitOn sign with
        | nil => rfl
        | cons first others => simp [List.modifyHead]

theorem dropReturn_encoding (marks : Utf8.Marks byte sign) (chars : List Char) :
    dropReturn byte (chars.flatMap String.utf8EncodeChar) =
      (dropReturn sign chars).flatMap String.utf8EncodeChar := by
  induction chars using List.reverseRecOn with
  | nil => rfl
  | append_singleton front last _ =>
      by_cases same : last = sign
      · subst same
        rw [dropReturn_append_self, List.flatMap_append, List.flatMap_singleton, marks.alone,
          dropReturn_append_self]
      · have otherLast : (front ++ [last]).getLast? ≠ some sign := by
          rw [List.getLast?_concat]
          exact fun equal => same (Option.some.inj equal)
        have otherByte : ((front ++ [last]).flatMap String.utf8EncodeChar).getLast? ≠
            some byte := by
          intro isLast
          rw [List.flatMap_append, List.flatMap_singleton, List.getLast?_append] at isLast
          rcases Option.or_eq_some_iff.mp isLast with here | ⟨empty, _⟩
          · exact same (marks.only last (List.mem_of_getLast? here))
          · exact String.utf8EncodeChar_ne_nil (List.getLast?_eq_none_iff.mp empty)
        rw [dropReturn_of_ne otherLast, dropReturn_of_ne otherByte]

/-- Cutting into lines and encoding can be exchanged. -/
theorem splitLines_encoding {lf cr : UInt8} {feed carriage : Char} (marksFeed : Utf8.Marks lf feed)
    (marksReturn : Utf8.Marks cr carriage) (chars : List Char) :
    splitLines lf cr (chars.flatMap String.utf8EncodeChar) =
      (splitLines feed carriage chars).map (List.flatMap String.utf8EncodeChar) := by
  rcases exists_splitOn feed chars with ⟨ended, last, split⟩
  have splitBytes : (chars.flatMap String.utf8EncodeChar).splitOn lf =
      ended.map (List.flatMap String.utf8EncodeChar) ++ [last.flatMap String.utf8EncodeChar] := by
    rw [splitOn_encoding marksFeed, split, List.map_append, List.map_singleton]
  rw [splitLines_of_splitOn split, splitLines_of_splitOn splitBytes, List.map_append, List.map_map,
    List.map_map]
  congr 1
  · apply List.map_congr_left
    intro line _
    exact dropReturn_encoding marksReturn line
  · cases last with
    | nil => rfl
    | cons c rest =>
        have notEmpty : (c :: rest).flatMap String.utf8EncodeChar ≠ [] := by
          rw [List.flatMap_cons]
          exact List.append_ne_nil_of_left_ne_nil String.utf8EncodeChar_ne_nil _
        rw [if_neg notEmpty, if_neg (List.cons_ne_nil c rest), List.map_singleton]

end Encoding
end Text

namespace SourceFile

/-! ## The lines of a file that is UTF-8 -/

/-- The lines of an encoded text are its encoded lines. -/
theorem byteLines_encode (text : String) :
    byteLines (Utf8.encode text) = (Text.lines text).map Utf8.encode := by
  rw [byteLines, Utf8.encode_eq_flatMap,
    Text.splitLines_encoding Utf8.marks_lineFeed Utf8.marks_return, Text.lines, List.map_map]
  apply List.map_congr_left
  intro line _
  rw [Function.comp_apply, Utf8.encode_ofList]

theorem decodeLines_encode (number : Nat) (lines : List String) :
    decodeLines number (lines.map Utf8.encode) = .ok lines := by
  induction lines generalizing number with
  | nil => rfl
  | cons line rest ih =>
      simp only [List.map_cons, decodeLines, Utf8.decode?_encode, ih, Except.map,
        String.ofList_toList]

/-! ## Lines that are UTF-8 -/

theorem valid_dropReturn_iff {segment : List UInt8} :
    Utf8.Valid (Text.dropReturn 0x0D segment) ↔ Utf8.Valid segment := by
  constructor
  · intro valid
    by_cases returns : segment.getLast? = some 0x0D
    · rcases List.getLast?_eq_some_iff.mp returns with ⟨line, rfl⟩
      rw [Text.dropReturn_append_self] at valid
      exact valid.append ⟨"\r", rfl⟩
    · rwa [Text.dropReturn_of_ne returns] at valid
  · rintro ⟨text, rfl⟩
    refine ⟨String.ofList (Text.dropReturn '\r' text.toList), ?_⟩
    rw [Utf8.encode_ofList, Utf8.encode_eq_flatMap, Text.dropReturn_encoding Utf8.marks_return]

/-- The line at a place is UTF-8, if there is one. -/
def ValidAt (lines : List (List UInt8)) (place : Nat) : Prop :=
  ∀ line ∈ lines[place]?, Utf8.Valid line

theorem forall_validAt_iff {lines : List (List UInt8)} :
    (∀ place, ValidAt lines place) ↔ ∀ line ∈ lines, Utf8.Valid line := by
  constructor
  · intro valid line member
    rcases List.getElem?_of_mem member with ⟨place, isLine⟩
    exact valid place line isLine
  · intro valid place line isLine
    exact valid line (List.mem_of_getElem? isLine)

/-- The lines are UTF-8 where the segments between the line feeds are. -/
theorem validAt_byteLines_iff {content : List UInt8} {place : Nat} :
    ValidAt (byteLines content) place ↔ ValidAt (content.splitOn 0x0A) place := by
  rcases Text.exists_splitOn 0x0A content with ⟨ended, last, split⟩
  unfold ValidAt
  rw [byteLines, Text.splitLines_of_splitOn split, split, List.getElem?_append,
    List.getElem?_append, List.length_map]
  by_cases isEnded : place < ended.length
  · rw [if_pos isEnded, if_pos isEnded, List.getElem?_map]
    cases ended[place]? with
    | none => simp
    | some segment => simp [valid_dropReturn_iff]
  · rw [if_neg isEnded, if_neg isEnded]
    cases last with
    | nil =>
        -- An empty rest after the last line feed is no line, but it is UTF-8.
        rw [if_pos rfl]
        constructor
        · intro _ segment isSegment
          rw [List.mem_singleton.mp (List.mem_of_getElem? isSegment)]
          exact Utf8.valid_nil
        · intro _ line isLine
          cases isLine
    | cons first rest => rw [if_neg (List.cons_ne_nil first rest)]

theorem valid_intercalate {segments : List (List UInt8)}
    (valid : ∀ segment ∈ segments, Utf8.Valid segment) :
    Utf8.Valid ([0x0A].intercalate segments) := by
  induction segments with
  | nil => exact Utf8.valid_nil
  | cons first rest ih =>
      rcases List.forall_mem_cons.mp valid with ⟨validFirst, validRest⟩
      cases rest with
      | nil =>
          rw [List.intercalate_singleton]
          exact validFirst
      | cons second others =>
          rw [List.intercalate_cons_cons]
          exact (validFirst.append ⟨"\n", rfl⟩).append (ih validRest)

/-- A file is UTF-8 if and only if all its segments are. -/
theorem valid_iff_forall_splitOn {content : List UInt8} :
    Utf8.Valid content ↔ ∀ segment ∈ content.splitOn 0x0A, Utf8.Valid segment := by
  constructor
  · rintro ⟨text, rfl⟩ segment member
    rw [Utf8.encode_eq_flatMap, Text.splitOn_encoding Utf8.marks_lineFeed] at member
    rcases List.mem_map.mp member with ⟨chars, _, rfl⟩
    exact ⟨String.ofList chars, Utf8.encode_ofList chars⟩
  · intro valid
    have whole : [0x0A].intercalate (content.splitOn 0x0A) = content :=
      List.intercalate_splitOn 0x0A
    rw [← whole]
    exact valid_intercalate valid

/-- Reading fails at the first line that is not UTF-8. -/
theorem decodeLines_of_first {lines : List (List UInt8)} {place : Nat}
    (before : ∀ earlier < place, ValidAt lines earlier) (here : ¬ ValidAt lines place)
    (number : Nat) : decodeLines number lines = .error (number + place) := by
  induction lines generalizing place number with
  | nil =>
      apply absurd _ here
      intro line isLine
      cases isLine
  | cons line rest ih =>
      cases place with
      | zero =>
          have failure : Utf8.decode? line = none :=
            Utf8.decode?_eq_none_iff.mpr fun valid => here fun other isOther =>
              Option.some.inj isOther ▸ valid
          simp only [decodeLines, failure, Nat.add_zero]
      | succ place =>
          rcases before 0 (Nat.succ_pos place) line rfl with ⟨text, isEncoding⟩
          have readable : Utf8.decode? line = some text.toList := by
            rw [← isEncoding, Utf8.decode?_encode]
          have later := ih (fun earlier isBefore =>
            before (earlier + 1) (Nat.succ_lt_succ isBefore)) here (number + 1)
          simp only [decodeLines, readable, later, Except.map, Nat.add_assoc, Nat.add_comm 1 place]

/-! ## Segments between line feeds -/

/-- A segment of a file: bytes without a line feed that go on as far as
possible, to a line feed or to an end of the file on either side. -/
structure Segment (content front segment back : List UInt8) : Prop where
  whole : content = front ++ (segment ++ back)
  unbroken : 0x0A ∉ segment
  begins : front = [] ∨ ∃ earlier, front = earlier ++ [0x0A]
  ends : back = [] ∨ ∃ later, back = 0x0A :: later

/-- A segment is found at the place that the line feeds before it count. -/
theorem Segment.getElem?_splitOn {content front segment back : List UInt8}
    (isSegment : Segment content front segment back) :
    (content.splitOn 0x0A)[front.count 0x0A]? = some segment := by
  have first : ∃ others, (segment ++ back).splitOn 0x0A = segment :: others := by
    rcases isSegment.ends with isEnd | ⟨later, isFeed⟩
    · exact ⟨[], by rw [isEnd, List.append_nil, List.splitOn_eq_singleton isSegment.unbroken]⟩
    · exact ⟨_, by rw [isFeed, List.splitOn_append_cons_self_of_not_mem isSegment.unbroken]⟩
  rcases first with ⟨others, splitRest⟩
  rcases isSegment.begins with isStart | ⟨earlier, isFeed⟩
  · rw [isSegment.whole, isStart, List.nil_append, splitRest, List.count_nil]
    rfl
  · have count : front.count 0x0A = (earlier.splitOn 0x0A).length := by
      rw [isFeed, List.count_append, List.count_singleton_self, Text.length_splitOn]
    have split : content.splitOn 0x0A = earlier.splitOn 0x0A ++ segment :: others := by
      rw [isSegment.whole, isFeed, List.append_assoc, List.singleton_append,
        List.splitOn_append_cons_self, splitRest]
    rw [split, count, List.getElem?_append_right (Nat.le_refl _), Nat.sub_self]
    rfl

/-- At every place there is a segment. -/
theorem exists_segment {content segment : List UInt8} {place : Nat}
    (isAt : (content.splitOn 0x0A)[place]? = some segment) :
    ∃ front back, Segment content front segment back ∧ front.count 0x0A = place := by
  induction place generalizing content with
  | zero =>
      by_cases feeds : 0x0A ∈ content
      · rcases List.eq_append_cons_of_mem feeds with ⟨first, rest, rfl, unbroken⟩
        rw [List.splitOn_append_cons_self_of_not_mem unbroken] at isAt
        cases isAt
        exact ⟨[], _, ⟨rfl, unbroken, Or.inl rfl, Or.inr ⟨rest, rfl⟩⟩, rfl⟩
      · rw [List.splitOn_eq_singleton feeds] at isAt
        cases isAt
        exact ⟨[], [], ⟨(List.append_nil _).symm, feeds, Or.inl rfl, Or.inl rfl⟩, rfl⟩
  | succ place ih =>
      by_cases feeds : 0x0A ∈ content
      · rcases List.eq_append_cons_of_mem feeds with ⟨first, rest, rfl, unbroken⟩
        rw [List.splitOn_append_cons_self_of_not_mem unbroken] at isAt
        rcases ih isAt with ⟨front, back, isSegment, count⟩
        refine ⟨first ++ 0x0A :: front, back, ⟨?_, isSegment.unbroken, Or.inr ?_, isSegment.ends⟩,
          ?_⟩
        · rw [isSegment.whole, List.append_assoc, List.cons_append]
        · rcases isSegment.begins with isStart | ⟨earlier, isFeed⟩
          · exact ⟨first, by rw [isStart]⟩
          · exact ⟨first ++ 0x0A :: earlier, by rw [isFeed, List.append_assoc, List.cons_append]⟩
        · rw [List.count_append, List.count_eq_zero.mpr unbroken, List.count_cons_self, count,
            Nat.zero_add]
      · rw [List.splitOn_eq_singleton feeds] at isAt
        cases isAt

/-- Of two segments the one that begins earlier has fewer line feeds before it. -/
theorem Segment.count_lt {content front segment back otherFront otherSegment otherBack : List UInt8}
    (isSegment : Segment content front segment back)
    (isOther : Segment content otherFront otherSegment otherBack)
    (shorter : otherFront.length < front.length) : otherFront.count 0x0A < front.count 0x0A := by
  rcases isSegment.begins with isStart | ⟨earlier, isFeed⟩
  · rw [isStart] at shorter
    cases shorter
  · have isFront : earlier <+: content := by
      rw [isSegment.whole, isFeed, List.append_assoc]
      exact List.prefix_append earlier _
    have isOtherFront : otherFront <+: content := by
      rw [isOther.whole]
      exact List.prefix_append otherFront _
    rw [isFeed, List.length_append, List.length_singleton] at shorter
    have inside : otherFront <+: earlier :=
      List.prefix_of_prefix_length_le isOtherFront isFront (by omega)
    have fewer := inside.sublist.count_le 0x0A
    rw [isFeed, List.count_append, List.count_singleton_self]
    omega

/-! ## Reading a file -/

theorem read_encode (name : FileName) (text : String) :
    read name (.content (Utf8.encode text)) = .ok (Text.lines text) := by
  simp only [read, byteLines_encode, decodeLines_encode]

/-- A file that is not UTF-8 has a first segment that is not, and reading fails at
its line. -/
theorem read_of_not_valid (name : FileName) {content : List UInt8}
    (invalid : ¬ Utf8.Valid content) :
    ∃ front segment back, Segment content front segment back ∧ ¬ Utf8.Valid segment ∧
      (∀ otherFront otherSegment otherBack, Segment content otherFront otherSegment otherBack →
        otherFront.length < front.length → Utf8.Valid otherSegment) ∧
      read name (.content content) =
        .error (.input name (some (1 + front.count 0x0A)) .notUtf8) := by
  classical
  have somewhere : ∃ place, ¬ ValidAt (content.splitOn 0x0A) place := by
    rw [valid_iff_forall_splitOn, ← forall_validAt_iff] at invalid
    exact not_forall.mp invalid
  have first : ∃ place, ¬ ValidAt (content.splitOn 0x0A) place ∧
      ∀ earlier < place, ValidAt (content.splitOn 0x0A) earlier :=
    ⟨Nat.find somewhere, Nat.find_spec somewhere, fun _ isBefore =>
      not_not.mp (Nat.find_min somewhere isBefore)⟩
  rcases first with ⟨place, here, before⟩
  have failure : decodeLines 1 (byteLines content) = .error (1 + place) :=
    decodeLines_of_first (fun earlier isBefore =>
      validAt_byteLines_iff.mpr (before earlier isBefore))
      (mt validAt_byteLines_iff.mp here) 1
  simp only [ValidAt, not_forall] at here
  rcases here with ⟨segment, isAt, notValid⟩
  rcases exists_segment isAt with ⟨front, back, isSegment, count⟩
  refine ⟨front, segment, back, isSegment, notValid, ?_, ?_⟩
  · intro otherFront otherSegment otherBack isOther shorter
    have fewer := isSegment.count_lt isOther shorter
    rw [count] at fewer
    exact before _ fewer otherSegment isOther.getElem?_splitOn
  · simp only [read, failure, count]

end SourceFile

/-- A job on a file reads it as a text.  If the file is UTF-8, the result is the
report for the text, provided that the listing could be written.  Otherwise the
job fails at the line of the first segment that is not UTF-8.  A file is UTF-8 if
and only if each of its lines is. -/
theorem Job.result_of_content {host : Host} {job : Job} {content : List UInt8}
    (readable : host.files.openInput job.input = .content content) :
    (∀ text, Utf8.encode text = content →
      let report := assembleText .standard text
      (job.run host).result =
        (host.write job.output (Listing.text report job.full)).map fun _ => report) ∧
    (¬ Utf8.Valid content → ∃ front segment back, SourceFile.Segment content front segment back ∧
      ¬ Utf8.Valid segment ∧
      (∀ otherFront otherSegment otherBack,
        SourceFile.Segment content otherFront otherSegment otherBack →
        otherFront.length < front.length → Utf8.Valid otherSegment) ∧
      (job.run host).result = .error (.input job.input (some (1 + front.count 0x0A)) .notUtf8)) ∧
    (Utf8.Valid content ↔ ∀ line ∈ SourceFile.byteLines content, Utf8.Valid line) := by
  refine ⟨?_, ?_, ?_⟩
  · intro text isEncoding report
    subst isEncoding
    have isReport : (transcribe .standard (Text.lines text)).report = report := rfl
    simp only [run, readable, SourceFile.read_encode, isReport]
    cases host.write job.output (Listing.text report job.full) with
    | ok written => rfl
    | error failure => rfl
  · intro invalid
    rcases SourceFile.read_of_not_valid job.input invalid with
      ⟨front, segment, back, isSegment, notValid, isFirst, failure⟩
    refine ⟨front, segment, back, isSegment, notValid, isFirst, ?_⟩
    simp only [run, readable, failure]
  · rw [SourceFile.valid_iff_forall_splitOn, ← SourceFile.forall_validAt_iff,
      ← SourceFile.forall_validAt_iff]
    exact forall_congr' fun place => SourceFile.validAt_byteLines_iff.symm

/-- A text with both kinds of line endings and a longer character, and the same
file with an encoding that a line feed breaks off. -/
theorem Job.result_of_content_broken :
    let text := "START 100\r\nÄ STOP\nADD AREG Ä"
    let broken : List UInt8 := Utf8.encode "START 100\r\n" ++ [0xC3, 0x0A, 0x84]
    let hostOf : List UInt8 → Host :=
      fun content => ⟨⟨[([], .directory), ([[0x69]], .file content)], []⟩, false⟩
    let job : Job := { input := ⟨[0x69]⟩, full := true }
    ((hostOf (Utf8.encode text)).files.openInput job.input = .content (Utf8.encode text) ∧
      (job.run (hostOf (Utf8.encode text))).result = .ok (assembleText .standard text)) ∧
    (hostOf broken).files.openInput job.input = .content broken ∧ ¬ Utf8.Valid broken ∧
      ∃ front segment back, SourceFile.Segment broken front segment back ∧ ¬ Utf8.Valid segment ∧
        (job.run (hostOf broken)).result =
          .error (.input ⟨[0x69]⟩ (some (1 + front.count 0x0A)) .notUtf8) := by
  intro text broken hostOf job
  have readable : (hostOf (Utf8.encode text)).files.openInput job.input =
      .content (Utf8.encode text) := by
    decide +kernel
  have readableBroken : (hostOf broken).files.openInput job.input = .content broken := by
    decide +kernel
  have invalid : ¬ Utf8.Valid broken := Utf8.decode?_eq_none_iff.mp (by decide +kernel)
  rcases (Job.result_of_content readableBroken).2.1 invalid with
    ⟨front, segment, back, isSegment, notValid, _, failure⟩
  exact ⟨⟨readable, (Job.result_of_content readable).1 text rfl⟩, readableBroken, invalid, front,
    segment, back, isSegment, notValid, failure⟩

end FirstPass
