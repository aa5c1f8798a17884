import FirstPass.Text.Utf8
import Mathlib.Data.List.Basic
import Mathlib.Data.List.TakeWhile

namespace FirstPass
namespace Utf8

/-!
Reading and writing UTF-8.

Strict reading is the inverse of encoding: it accepts a sequence of bytes if and
only if the bytes encode some text, and gives the characters of that text.  A
leading byte announces how many bytes come after it and which second byte can
stand there, and the encoded characters of more than one byte are the sequences
that keep to this.
-/

/-! ## Leading bytes and the bytes after them -/

/-- The least byte that can stand second.  A lower one would make the encoding
longer than needed. -/
def leastSecond (lead : UInt8) : UInt8 :=
  if lead = 0xE0 then 0xA0 else if lead = 0xF0 then 0x90 else 0x80

/-- The greatest byte that can stand second.  A greater one would encode a
surrogate, or a number beyond the last code point. -/
def greatestSecond (lead : UInt8) : UInt8 :=
  if lead = 0xED then 0x9F else if lead = 0xF4 then 0x8F else 0xBF

/-- The announcements, by the number of bytes announced. -/
theorem announced_eq (lead : UInt8) : announced lead =
    if 0xC2 ≤ lead.toNat ∧ lead.toNat ≤ 0xDF then
      some (1, leastSecond lead, greatestSecond lead)
    else if 0xE0 ≤ lead.toNat ∧ lead.toNat ≤ 0xEF then
      some (2, leastSecond lead, greatestSecond lead)
    else if 0xF0 ≤ lead.toNat ∧ lead.toNat ≤ 0xF4 then
      some (3, leastSecond lead, greatestSecond lead)
    else none := by
  have every : ∀ number < 256, announced (.ofNat number) =
      if 0xC2 ≤ number ∧ number ≤ 0xDF then
        some (1, leastSecond (.ofNat number), greatestSecond (.ofNat number))
      else if 0xE0 ≤ number ∧ number ≤ 0xEF then
        some (2, leastSecond (.ofNat number), greatestSecond (.ofNat number))
      else if 0xF0 ≤ number ∧ number ≤ 0xF4 then
        some (3, leastSecond (.ofNat number), greatestSecond (.ofNat number))
      else none := by
    decide +kernel
  have here := every lead.toNat lead.toNat_lt
  rwa [UInt8.ofNat_toNat] at here

theorem second_inRange_iff {lead second : UInt8} :
    leastSecond lead ≤ second ∧ second ≤ greatestSecond lead ↔
      (0x80 ≤ second.toNat ∧ second.toNat ≤ 0xBF) ∧
      (lead.toNat = 0xE0 → 0xA0 ≤ second.toNat) ∧ (lead.toNat = 0xF0 → 0x90 ≤ second.toNat) ∧
      (lead.toNat = 0xED → second.toNat ≤ 0x9F) ∧ (lead.toNat = 0xF4 → second.toNat ≤ 0x8F) := by
  have least : (leastSecond lead).toNat =
      if lead.toNat = 0xE0 then 0xA0 else if lead.toNat = 0xF0 then 0x90 else 0x80 := by
    simp only [leastSecond, ← UInt8.toNat_inj, apply_ite UInt8.toNat]
    rfl
  have greatest : (greatestSecond lead).toNat =
      if lead.toNat = 0xED then 0x9F else if lead.toNat = 0xF4 then 0x8F else 0xBF := by
    simp only [greatestSecond, ← UInt8.toNat_inj, apply_ite UInt8.toNat]
    rfl
  rw [UInt8.le_iff_toNat_le, UInt8.le_iff_toNat_le, least, greatest]
  split_ifs <;> omega

theorem isContinuation_iff {byte : UInt8} :
    isContinuation byte = true ↔ 0x80 ≤ byte.toNat ∧ byte.toNat ≤ 0xBF := by
  rw [isContinuation, Bool.and_eq_true, decide_eq_true_iff, decide_eq_true_iff,
    UInt8.le_iff_toNat_le, UInt8.le_iff_toNat_le]
  rfl

/-- Bytes that stand after a leading byte as it announces. -/
inductive Follows (lead : UInt8) : List UInt8 → Prop
  | one {second : UInt8} (leads : 0xC2 ≤ lead.toNat ∧ lead.toNat ≤ 0xDF)
      (inRange : leastSecond lead ≤ second ∧ second ≤ greatestSecond lead) : Follows lead [second]
  | two {second third : UInt8} (leads : 0xE0 ≤ lead.toNat ∧ lead.toNat ≤ 0xEF)
      (inRange : leastSecond lead ≤ second ∧ second ≤ greatestSecond lead)
      (continues : isContinuation third = true) : Follows lead [second, third]
  | three {second third fourth : UInt8} (leads : 0xF0 ≤ lead.toNat ∧ lead.toNat ≤ 0xF4)
      (inRange : leastSecond lead ≤ second ∧ second ≤ greatestSecond lead)
      (continues : isContinuation third = true ∧ isContinuation fourth = true) :
      Follows lead [second, third, fourth]

/-- A leading byte that others follow is not below `0x80`. -/
theorem Follows.not_lt {lead : UInt8} {later : List UInt8} (follows : Follows lead later) :
    ¬ lead < 0x80 := by
  have high : 0xC2 ≤ lead.toNat := by
    cases follows with
    | one leads => exact leads.1
    | two leads => omega
    | three leads => omega
  rw [UInt8.lt_iff_toNat_lt, Nat.not_lt]
  exact Nat.le_trans (by decide) high

theorem Follows.announces {lead : UInt8} {later : List UInt8} (follows : Follows lead later) :
    announced lead = some (later.length, leastSecond lead, greatestSecond lead) := by
  rw [announced_eq]
  cases follows with
  | one leads => rw [if_pos leads, List.length_singleton]
  | two leads =>
      rw [if_neg (by omega), if_pos leads]
      rfl
  | three leads =>
      rw [if_neg (by omega), if_neg (by omega), if_pos leads]
      rfl

theorem follows_of_announced {lead least greatest second : UInt8} {others : List UInt8}
    (announces : announced lead = some (others.length + 1, least, greatest))
    (inRange : least ≤ second ∧ second ≤ greatest)
    (continues : ∀ byte ∈ others, isContinuation byte = true) :
    Follows lead (second :: others) := by
  rw [announced_eq] at announces
  split_ifs at announces with leadsOne leadsTwo leadsThree
  · simp only [Option.some.injEq, Prod.mk.injEq] at announces
    rcases announces with ⟨count, rfl, rfl⟩
    have noOthers : others = [] := List.length_eq_zero_iff.mp (by omega)
    subst noOthers
    exact .one leadsOne inRange
  · simp only [Option.some.injEq, Prod.mk.injEq] at announces
    rcases announces with ⟨count, rfl, rfl⟩
    rcases List.length_eq_one_iff.mp (by omega : others.length = 1) with ⟨third, rfl⟩
    exact .two leadsTwo inRange (continues third (by simp))
  · simp only [Option.some.injEq, Prod.mk.injEq] at announces
    rcases announces with ⟨count, rfl, rfl⟩
    rcases List.length_eq_two.mp (by omega : others.length = 2) with ⟨third, fourth, rfl⟩
    exact .three leadsThree inRange ⟨continues third (by simp), continues fourth (by simp)⟩

theorem pos_of_announced {lead : UInt8} {count : Nat} {least greatest : UInt8}
    (announces : announced lead = some (count, least, greatest)) : 0 < count := by
  rw [announced_eq] at announces
  split_ifs at announces <;> cases announces <;> decide

/-- If as many bytes stand after a leading byte as it announces, then they follow
it. -/
theorem follows_of_laterBytes {lead : UInt8} {rest : List UInt8} {count : Nat}
    {least greatest : UInt8} (announces : announced lead = some (count, least, greatest))
    (complete : (laterBytes count least greatest rest).length = count) :
    Follows lead (laterBytes count least greatest rest) ∧
      laterBytes count least greatest rest <+: rest := by
  have positive := pos_of_announced announces
  cases rest with
  | nil =>
      rw [laterBytes, List.length_nil] at complete
      omega
  | cons second others =>
      by_cases inRange : least ≤ second ∧ second ≤ greatest
      · rw [laterBytes, if_pos (by simpa using inRange)] at complete ⊢
        rw [List.length_cons] at complete
        refine ⟨follows_of_announced (by rw [complete, announces]) inRange
          (List.all_eq_true.mp List.all_takeWhile), ?_⟩
        have isFront : (others.take (count - 1)).takeWhile isContinuation <+:
            others.take (count - 1) :=
          List.takeWhile_prefix isContinuation
        have wasTaken : others.take (count - 1) <+: others := List.take_prefix (count - 1) others
        exact List.cons_prefix_cons.mpr ⟨rfl, isFront.trans wasTaken⟩
      · rw [laterBytes, if_neg (by simpa using inRange), List.length_nil] at complete
        omega

theorem laterBytes_of_range {least greatest second : UInt8}
    (inRange : least ≤ second ∧ second ≤ greatest) {others : List UInt8}
    (continues : ∀ byte ∈ others, isContinuation byte = true) (back : List UInt8) :
    laterBytes (others.length + 1) least greatest (second :: (others ++ back)) =
      second :: others := by
  have allContinue : others.takeWhile isContinuation = others :=
    List.takeWhile_eq_self_iff.mpr continues
  rw [laterBytes, if_pos (by simpa using inRange), Nat.add_sub_cancel, List.take_left, allContinue]

theorem Follows.laterBytes {lead : UInt8} {later : List UInt8} (follows : Follows lead later)
    (back : List UInt8) :
    laterBytes later.length (leastSecond lead) (greatestSecond lead) (later ++ back) = later := by
  cases follows with
  | one _ inRange => exact laterBytes_of_range inRange (by simp) back
  | two _ inRange continues => exact laterBytes_of_range inRange (by simpa using continues) back
  | three _ inRange continues => exact laterBytes_of_range inRange (by simpa using continues) back

theorem cut_of_follows {lead : UInt8} {later : List UInt8} (follows : Follows lead later)
    (back : List UInt8) :
    cut lead (later ++ back) = (.char (Char.ofNat (codePoint lead later)), later.length) := by
  simp only [cut, if_neg follows.not_lt, follows.announces, follows.laterBytes, if_pos]

/-- The three ways in which the first piece can be cut. -/
theorem cut_cases (lead : UInt8) (rest : List UInt8) :
    (lead.toNat < 0x80 ∧ cut lead rest = (.char (Char.ofNat lead.toNat), 0)) ∨
    (∃ later, Follows lead later ∧ later <+: rest ∧
      cut lead rest = (.char (Char.ofNat (codePoint lead later)), later.length)) ∨
    ∃ bytes count, cut lead rest = (.malformed bytes, count) := by
  by_cases single : lead < 0x80
  · exact Or.inl ⟨UInt8.lt_iff_toNat_lt.mp single, by rw [cut, if_pos single]⟩
  · cases announces : announced lead with
    | none => exact Or.inr (Or.inr ⟨[lead], 0, by simp only [cut, if_neg single, announces]⟩)
    | some announcement =>
        rcases announcement with ⟨count, least, greatest⟩
        by_cases complete : (laterBytes count least greatest rest).length = count
        · rcases follows_of_laterBytes announces complete with ⟨follows, isFront⟩
          refine Or.inr (Or.inl ⟨_, follows, isFront, ?_⟩)
          simp only [cut, if_neg single, announces, complete, if_pos]
        · refine Or.inr (Or.inr ⟨lead :: laterBytes count least greatest rest,
            (laterBytes count least greatest rest).length, ?_⟩)
          simp only [cut, if_neg single, announces, if_neg complete]

/-! ## The bytes of a character -/

theorem toNat_ofNat (number : Nat) (valid : number.isValidChar) :
    (Char.ofNat number).toNat = number := by
  rw [Char.ofNat, dif_pos valid]
  rfl

theorem utf8EncodeChar_of_one {c : Char} (high : c.toNat ≤ 0x7F) :
    String.utf8EncodeChar c = [.ofNat c.toNat] :=
  if_pos high

theorem utf8EncodeChar_of_two {c : Char} (low : 0x80 ≤ c.toNat) (high : c.toNat ≤ 0x7FF) :
    String.utf8EncodeChar c = [.ofNat (c.toNat / 0x40 + 0xC0), .ofNat (c.toNat % 0x40 + 0x80)] := by
  have isNumber : c.val.toNat = c.toNat := rfl
  have small : c.toNat / 0x40 % 0x20 = c.toNat / 0x40 := by omega
  simp only [String.utf8EncodeChar, isNumber]
  rw [if_neg (by omega), if_pos high, small]

theorem utf8EncodeChar_of_three {c : Char} (low : 0x800 ≤ c.toNat) (high : c.toNat ≤ 0xFFFF) :
    String.utf8EncodeChar c =
      [.ofNat (c.toNat / 0x1000 + 0xE0), .ofNat (c.toNat / 0x40 % 0x40 + 0x80),
        .ofNat (c.toNat % 0x40 + 0x80)] := by
  have isNumber : c.val.toNat = c.toNat := rfl
  have small : c.toNat / 0x1000 % 0x10 = c.toNat / 0x1000 := by omega
  simp only [String.utf8EncodeChar, isNumber]
  rw [if_neg (by omega), if_neg (by omega), if_pos high, small]

theorem utf8EncodeChar_of_four {c : Char} (low : 0x10000 ≤ c.toNat) :
    String.utf8EncodeChar c =
      [.ofNat (c.toNat / 0x40000 + 0xF0), .ofNat (c.toNat / 0x1000 % 0x40 + 0x80),
        .ofNat (c.toNat / 0x40 % 0x40 + 0x80), .ofNat (c.toNat % 0x40 + 0x80)] := by
  have isNumber : c.val.toNat = c.toNat := rfl
  have valid : c.toNat.isValidChar := c.valid
  have small : c.toNat / 0x40000 % 0x08 = c.toNat / 0x40000 := by
    unfold Nat.isValidChar at valid
    omega
  simp only [String.utf8EncodeChar, isNumber]
  rw [if_neg (by omega), if_neg (by omega), if_neg (by omega), small]

theorem toNat_byte {number : Nat} (small : number < 0x100) : (UInt8.ofNat number).toNat = number :=
  UInt8.toNat_ofNat_of_lt' small

theorem byte_eq_iff {number : Nat} (small : number < 0x100) {byte : UInt8} :
    UInt8.ofNat number = byte ↔ number = byte.toNat := by
  rw [← UInt8.toNat_inj, toNat_byte small]

theorem codePoint_one (lead second : UInt8) :
    codePoint lead [second] = lead.toNat % 0x20 * 0x40 + second.toNat % 0x40 :=
  rfl

theorem codePoint_two (lead second third : UInt8) :
    codePoint lead [second, third] =
      (lead.toNat % 0x10 * 0x40 + second.toNat % 0x40) * 0x40 + third.toNat % 0x40 :=
  rfl

theorem codePoint_three (lead second third fourth : UInt8) :
    codePoint lead [second, third, fourth] =
      ((lead.toNat % 0x08 * 0x40 + second.toNat % 0x40) * 0x40 + third.toNat % 0x40) * 0x40 +
        fourth.toNat % 0x40 :=
  rfl

/-- Bytes that follow a leading byte encode with it the character whose number
they spell. -/
theorem utf8EncodeChar_of_follows {lead : UInt8} {later : List UInt8}
    (follows : Follows lead later) :
    String.utf8EncodeChar (Char.ofNat (codePoint lead later)) = lead :: later := by
  cases follows with
  | @one second leads inRange =>
      rw [second_inRange_iff] at inRange
      have number := codePoint_one lead second
      have toNat := toNat_ofNat (codePoint lead [second]) (Or.inl (by omega))
      rw [utf8EncodeChar_of_two (by omega) (by omega), toNat]
      simp (disch := omega) only [List.cons.injEq, and_true, byte_eq_iff]
      omega
  | @two second third leads inRange continues =>
      rw [second_inRange_iff] at inRange
      rw [isContinuation_iff] at continues
      have number := codePoint_two lead second third
      have toNat := toNat_ofNat (codePoint lead [second, third]) (by unfold Nat.isValidChar; omega)
      rw [utf8EncodeChar_of_three (by omega) (by omega), toNat]
      simp (disch := omega) only [List.cons.injEq, and_true, byte_eq_iff]
      omega
  | @three second third fourth leads inRange continues =>
      rw [second_inRange_iff] at inRange
      rw [isContinuation_iff, isContinuation_iff] at continues
      have number := codePoint_three lead second third fourth
      have toNat :=
        toNat_ofNat (codePoint lead [second, third, fourth]) (by unfold Nat.isValidChar; omega)
      rw [utf8EncodeChar_of_four (by omega), toNat]
      simp (disch := omega) only [List.cons.injEq, and_true, byte_eq_iff]
      omega

/-- The bytes of a character of more than one byte are a leading byte and what
follows it, and they spell its number. -/
theorem exists_follows {c : Char} (high : 0x80 ≤ c.toNat) :
    ∃ lead later, String.utf8EncodeChar c = lead :: later ∧ Follows lead later ∧
      codePoint lead later = c.toNat := by
  have valid : c.toNat.isValidChar := c.valid
  unfold Nat.isValidChar at valid
  by_cases two : c.toNat ≤ 0x7FF
  · rw [utf8EncodeChar_of_two high two]
    refine ⟨_, _, rfl, .one ?_ (second_inRange_iff.mpr ?_), ?_⟩
    all_goals
      simp (disch := omega) only [codePoint_one, toNat_byte]
      omega
  · by_cases three : c.toNat ≤ 0xFFFF
    · rw [utf8EncodeChar_of_three (by omega) three]
      refine ⟨_, _, rfl, .two ?_ (second_inRange_iff.mpr ?_) (isContinuation_iff.mpr ?_), ?_⟩
      all_goals
        simp (disch := omega) only [codePoint_two, toNat_byte]
        omega
    · rw [utf8EncodeChar_of_four (by omega)]
      refine ⟨_, _, rfl, .three ?_ (second_inRange_iff.mpr ?_)
        ⟨isContinuation_iff.mpr ?_, isContinuation_iff.mpr ?_⟩, ?_⟩
      all_goals
        simp (disch := omega) only [codePoint_three, toNat_byte]
        omega

/-- An encoded character is cut off as such, whatever comes after it. -/
theorem cut_utf8EncodeChar (c : Char) (back : List UInt8) :
    ∃ lead later, String.utf8EncodeChar c = lead :: later ∧
      cut lead (later ++ back) = (.char c, later.length) := by
  by_cases single : c.toNat < 0x80
  · refine ⟨.ofNat c.toNat, [], utf8EncodeChar_of_one (by omega), ?_⟩
    have toNat : (UInt8.ofNat c.toNat).toNat = c.toNat := toNat_byte (by omega)
    have below : UInt8.ofNat c.toNat < 0x80 := by
      rw [UInt8.lt_iff_toNat_lt, toNat]
      exact single
    rw [cut, if_pos below, toNat, Char.ofNat_toNat, List.length_nil]
  · rcases exists_follows (Nat.not_lt.mp single) with ⟨lead, later, isEncoding, follows, number⟩
    refine ⟨lead, later, isEncoding, ?_⟩
    rw [cut_of_follows follows, number, Char.ofNat_toNat]

/-- What is cut off as a character is its encoding. -/
theorem utf8EncodeChar_of_cut {lead : UInt8} {rest : List UInt8} {c : Char} {count : Nat}
    (isChar : cut lead rest = (.char c, count)) :
    String.utf8EncodeChar c = lead :: rest.take count := by
  rcases cut_cases lead rest with ⟨single, whole⟩ | ⟨later, follows, isFront, whole⟩ | ⟨_, _, whole⟩
  · rw [whole] at isChar
    cases isChar
    have toNat := toNat_ofNat lead.toNat (Or.inl (by omega))
    rw [utf8EncodeChar_of_one (by omega), toNat, UInt8.ofNat_toNat, List.take_zero]
  · rw [whole] at isChar
    cases isChar
    rw [utf8EncodeChar_of_follows follows, ← List.prefix_iff_eq_take.mp isFront]
  · rw [whole] at isChar
    cases isChar

/-! ## Strict reading -/

theorem decode?_nil : decode? [] = some [] := by
  rw [decode?, pieces]
  rfl

theorem decode?_cons_of_char {lead : UInt8} {rest : List UInt8} {c : Char} {count : Nat}
    (isChar : cut lead rest = (.char c, count)) :
    decode? (lead :: rest) = (decode? (rest.drop count)).map (c :: ·) := by
  rw [decode?, pieces, isChar, List.mapM_cons, Option.map_eq_bind]
  rfl

theorem decode?_cons_of_malformed {lead : UInt8} {rest bytes : List UInt8} {count : Nat}
    (isMalformed : cut lead rest = (.malformed bytes, count)) : decode? (lead :: rest) = none := by
  rw [decode?, pieces, isMalformed, List.mapM_cons]
  rfl

theorem eq_encoding_of_decode? {bytes : List UInt8} {chars : List Char}
    (success : decode? bytes = some chars) : bytes = chars.flatMap String.utf8EncodeChar := by
  fun_induction pieces bytes generalizing chars with
  | case1 =>
      rw [decode?_nil] at success
      cases success
      rfl
  | case2 lead rest ih =>
      rcases isCut : cut lead rest with ⟨piece, count⟩
      cases piece with
      | malformed bytes =>
          rw [decode?_cons_of_malformed isCut] at success
          cases success
      | char c =>
          rw [decode?_cons_of_char isCut] at success
          rcases Option.map_eq_some_iff.mp success with ⟨others, isRest, isWhole⟩
          subst isWhole
          rw [isCut] at ih
          rw [List.flatMap_cons, ← ih isRest, utf8EncodeChar_of_cut isCut, List.cons_append,
            List.take_append_drop]

theorem decode?_encoding (chars : List Char) :
    decode? (chars.flatMap String.utf8EncodeChar) = some chars := by
  induction chars with
  | nil => exact decode?_nil
  | cons c rest ih =>
      rcases cut_utf8EncodeChar c (rest.flatMap String.utf8EncodeChar) with
        ⟨lead, later, isEncoding, isChar⟩
      rw [List.flatMap_cons, isEncoding, List.cons_append, decode?_cons_of_char isChar,
        List.drop_left, ih]
      rfl

theorem encode_eq_flatMap (text : String) :
    encode text = text.toList.flatMap String.utf8EncodeChar := by
  rw [encode, String.toUTF8_eq_toByteArray, ← String.utf8Encode_toList, List.utf8Encode,
    List.data_toByteArray]

theorem encode_ofList (chars : List Char) :
    encode (String.ofList chars) = chars.flatMap String.utf8EncodeChar := by
  rw [encode_eq_flatMap, String.toList_ofList]

/-- Strict reading is the inverse of encoding. -/
theorem decode?_eq_some_iff {bytes : List UInt8} {chars : List Char} :
    decode? bytes = some chars ↔ bytes = encode (String.ofList chars) := by
  rw [encode_ofList]
  constructor
  · exact eq_encoding_of_decode?
  · rintro rfl
    exact decode?_encoding chars

theorem decode?_encode (text : String) : decode? (encode text) = some text.toList := by
  rw [decode?_eq_some_iff, String.ofList_toList]

theorem encode_append (first second : String) :
    encode (first ++ second) = encode first ++ encode second := by
  rw [encode_eq_flatMap, encode_eq_flatMap, encode_eq_flatMap, String.toList_append,
    List.flatMap_append]

/-- A sequence of bytes that encodes a text. -/
def Valid (bytes : List UInt8) : Prop :=
  ∃ text, encode text = bytes

theorem decode?_eq_none_iff {bytes : List UInt8} : decode? bytes = none ↔ ¬ Valid bytes := by
  constructor
  · rintro failure ⟨text, isEncoding⟩
    rw [← isEncoding, decode?_encode] at failure
    cases failure
  · intro invalid
    cases reading : decode? bytes with
    | none => rfl
    | some chars =>
        exact absurd ⟨String.ofList chars, (decode?_eq_some_iff.mp reading).symm⟩ invalid

theorem valid_nil : Valid [] :=
  ⟨"", rfl⟩

theorem Valid.append {first second : List UInt8} (validFirst : Valid first)
    (validSecond : Valid second) : Valid (first ++ second) := by
  rcases validFirst with ⟨one, isFirst⟩
  rcases validSecond with ⟨other, isSecond⟩
  exact ⟨one ++ other, by rw [encode_append, isFirst, isSecond]⟩

/-! ## Bytes that stand for a character wherever they occur -/

/-- A byte that encodes a character, and is part of no other encoded character. -/
structure Marks (byte : UInt8) (sign : Char) : Prop where
  alone : String.utf8EncodeChar sign = [byte]
  only : ∀ c, byte ∈ String.utf8EncodeChar c → c = sign

/-- All bytes of a longer encoding are from `0x80` on. -/
theorem Follows.le_of_mem {lead : UInt8} {later : List UInt8} (follows : Follows lead later)
    {byte : UInt8} (member : byte ∈ lead :: later) : 0x80 ≤ byte.toNat := by
  cases follows with
  | one leads inRange =>
      rw [second_inRange_iff] at inRange
      simp only [List.mem_cons, List.not_mem_nil, or_false] at member
      rcases member with rfl | rfl <;> omega
  | two leads inRange continues =>
      rw [second_inRange_iff] at inRange
      rw [isContinuation_iff] at continues
      simp only [List.mem_cons, List.not_mem_nil, or_false] at member
      rcases member with rfl | rfl | rfl <;> omega
  | three leads inRange continues =>
      rw [second_inRange_iff] at inRange
      rw [isContinuation_iff, isContinuation_iff] at continues
      simp only [List.mem_cons, List.not_mem_nil, or_false] at member
      rcases member with rfl | rfl | rfl | rfl <;> omega

theorem marks_of_ascii (sign : Char) (ascii : sign.toNat < 0x80) :
    Marks (.ofNat sign.toNat) sign where
  alone := utf8EncodeChar_of_one (by omega)
  only := by
    intro c member
    have toNat : (UInt8.ofNat sign.toNat).toNat = sign.toNat := toNat_byte (by omega)
    by_cases high : 0x80 ≤ c.toNat
    · rcases exists_follows high with ⟨lead, later, isEncoding, follows, _⟩
      have above := follows.le_of_mem (isEncoding ▸ member)
      omega
    · rw [utf8EncodeChar_of_one (by omega), List.mem_singleton, byte_eq_iff (by omega),
        toNat_byte (by omega)]
        at member
      exact Char.toNat_inj.mp member.symm

theorem marks_lineFeed : Marks 0x0A '\n' :=
  marks_of_ascii '\n' (by decide)

theorem marks_return : Marks 0x0D '\r' :=
  marks_of_ascii '\r' (by decide)

end Utf8
end FirstPass
