import FirstPass.Proofs.Runs
import Mathlib.Data.List.Chain

namespace FirstPass

/-!
Storage in the standard instruction set.

A placed instruction takes up one word, and a placed reservation as many as
the constant after it says.  As long as the counter is neither started nor
moved, the words of the placed records follow each other without a gap and
without an overlap, and the counter goes on by exactly their number.  What
fails, is malformed, or stands after the end takes up nothing.
-/

/-- Some words of storage: the address of the first, and their number. -/
structure Extent where
  first : Int
  words : Nat
deriving DecidableEq, Repr

namespace Extent

/-- Whether an address is one of the words. -/
def Covers (extent : Extent) (address : Int) : Prop :=
  extent.first ≤ address ∧ address < extent.first + extent.words

def Disjoint (one other : Extent) : Prop :=
  ∀ address, ¬ (one.Covers address ∧ other.Covers address)

/-- The number of words of a list of extents. -/
def total : List Extent → Int
  | [] => 0
  | extent :: extents => extent.words + total extents

theorem total_nonneg (extents : List Extent) : 0 ≤ total extents := by
  induction extents with
  | nil => exact Int.le_refl 0
  | cons extent extents ih =>
      rw [total]
      omega

/-- Extents that follow each other from one address to another. -/
def Tiles : Int → List Extent → Int → Prop
  | start, [], finish => finish = start
  | start, extent :: extents, finish =>
      extent.first = start ∧ Tiles (start + extent.words) extents finish

theorem Tiles.finish_eq {start finish : Int} {extents : List Extent}
    (tiles : Tiles start extents finish) : finish = start + total extents := by
  induction extents generalizing start with
  | nil => exact tiles.trans (Int.add_zero start).symm
  | cons extent extents ih =>
      rw [total, ih tiles.2]
      omega

theorem Tiles.first_eq {start finish : Int} {extents : List Extent}
    (tiles : Tiles start extents finish) {place : Nat} {extent : Extent}
    (here : extents[place]? = some extent) : extent.first = start + total (extents.take place) := by
  induction extents generalizing start place with
  | nil => cases here
  | cons first extents ih =>
      cases place with
      | zero =>
          rw [← Option.some.inj here, tiles.1]
          exact (Int.add_zero start).symm
      | succ place =>
          rw [ih tiles.2 here, List.take_succ_cons, total]
          omega

theorem Tiles.start_le {start finish : Int} {extents : List Extent}
    (tiles : Tiles start extents finish) : start ≤ finish := by
  have nonnegative := total_nonneg extents
  have finishes := tiles.finish_eq
  omega

/-- Every extent begins where the one before it ends. -/
theorem Tiles.isChain {start finish : Int} {extents : List Extent}
    (tiles : Tiles start extents finish) :
    extents.IsChain fun one next : Extent => next.first = one.first + one.words := by
  induction extents generalizing start with
  | nil => exact .nil
  | cons first extents ih =>
      cases extents with
      | nil => exact .singleton first
      | cons second extents =>
          refine .cons_cons ?_ (ih tiles.2)
          rw [tiles.1]
          exact tiles.2.1

theorem Tiles.le_first {start finish : Int} {extents : List Extent}
    (tiles : Tiles start extents finish) {extent : Extent} (member : extent ∈ extents) :
    start ≤ extent.first := by
  induction extents generalizing start with
  | nil => cases member
  | cons first extents ih =>
      rcases List.mem_cons.mp member with here | later
      · have same : extent.first = start := by rw [here, tiles.1]
        exact Int.le_of_eq same.symm
      · have bound := ih tiles.2 later
        omega

theorem Tiles.pairwise_disjoint {start finish : Int} {extents : List Extent}
    (tiles : Tiles start extents finish) : extents.Pairwise Disjoint := by
  induction extents generalizing start with
  | nil => exact .nil
  | cons first extents ih =>
      refine List.pairwise_cons.mpr ⟨?_, ih tiles.2⟩
      rintro other member address ⟨⟨_, below⟩, ⟨above, _⟩⟩
      have bound := tiles.2.le_first member
      rw [tiles.1] at below
      omega

end Extent

namespace Record

/-- The address of a placed record. -/
def address? : Record → Option Address
  | .instruction address _ _ => address
  | _ => none

/-- The number that a list of records shows as its first record. -/
def shownCount : List Record → Nat
  | .constant digits :: _ => Decimal.value digits.toList
  | _ => 0

/-- The words that the placed records of a list take up.  For a reservation
(DL, 02) it is the constant directly after it that tells. -/
def extents : List Record → List Extent
  | [] => []
  | .instruction (some first) category opcode :: rest =>
      ⟨first.value, if category = .declarative ∧ opcode = ⟨2⟩ then shownCount rest else 1⟩ ::
        extents rest
  | _ :: rest => extents rest

/-- Whether a record is one of a start (AD, 01) or of a move (AD, 03). -/
def repositions : Record → Bool
  | .instruction _ category opcode => category = .directive && (opcode = ⟨1⟩ || opcode = ⟨3⟩)
  | _ => false

theorem extents_cons_of_unplaced {record : Record} (unplaced : record.address? = none)
    (records : List Record) : extents (record :: records) = extents records := by
  cases record with
  | instruction address category opcode =>
      cases address with
      | none => rfl
      | some address => cases unplaced
  | _ => rfl

end Record

/-- The placed records of a list take up the words from one place to another;
without a place there are none. -/
inductive Fills : Option Address → List Record → Option Address → Prop
  | done (place : Option Address) : Fills place [] place
  | word {first next : Address} {category : Category} {opcode : Opcode} {records : List Record}
      {finish : Option Address} (plain : ¬ (category = .declarative ∧ opcode = ⟨2⟩))
      (moved : next.value = first.value + 1) (rest : Fills (some next) records finish) :
      Fills (some first) (.instruction (some first) category opcode :: records) finish
  | reservation {first next : Address} {digits : String} {records : List Record}
      {finish : Option Address} (moved : next.value = first.value + Decimal.value digits.toList)
      (rest : Fills (some next) records finish) :
      Fills (some first)
        (.instruction (some first) .declarative ⟨2⟩ :: .constant digits :: records) finish
  | other {place : Option Address} {record : Record} {records : List Record}
      {finish : Option Address}
      (unplaced : record.address? = none) (rest : Fills place records finish) :
      Fills place (record :: records) finish

namespace Fills

theorem append {start middle finish : Option Address} {first second : List Record}
    (before : Fills start first middle) (after : Fills middle second finish) :
    Fills start (first ++ second) finish := by
  induction before with
  | done place => exact after
  | word plain moved _ ih => exact .word plain moved (ih after)
  | reservation moved _ ih => exact .reservation moved (ih after)
  | other unplaced _ ih => exact .other unplaced (ih after)

theorem of_none {start finish : Option Address} {records : List Record}
    (fills : Fills start records finish) (isNone : start = none) :
    Record.extents records = [] ∧ finish = none := by
  induction fills with
  | done place => exact ⟨rfl, isNone⟩
  | word => cases isNone
  | reservation => cases isNone
  | other unplaced _ ih =>
      rw [Record.extents_cons_of_unplaced unplaced]
      exact ih isNone

theorem tiles {start : Address} {place finish : Option Address} {records : List Record}
    (fills : Fills place records finish) (isStart : place = some start) :
    ∃ last, finish = some last ∧ Extent.Tiles start.value (Record.extents records) last.value := by
  induction fills generalizing start with
  | done place => exact ⟨start, isStart, rfl⟩
  | @word first next category opcode records finish plain moved _ ih =>
      rcases ih rfl with ⟨last, isLast, tiles⟩
      cases isStart
      refine ⟨last, isLast, rfl, ?_⟩
      simp only [if_neg plain]
      exact moved ▸ tiles
  | @reservation first next digits records finish moved _ ih =>
      rcases ih rfl with ⟨last, isLast, tiles⟩
      cases isStart
      refine ⟨last, isLast, rfl, ?_⟩
      simp only [and_self, if_true]
      exact moved ▸ tiles
  | other unplaced _ ih =>
      rw [Record.extents_cons_of_unplaced unplaced]
      exact ih isStart

/-- Every placed reservation is followed by its count. -/
theorem count_shown {start finish : Option Address} {records : List Record}
    (fills : Fills start records finish) {front rest : List Record} {first : Address}
    (split : records = front ++ .instruction (some first) .declarative ⟨2⟩ :: rest) :
    ∃ digits later, rest = .constant digits :: later := by
  induction fills generalizing front with
  | done place => simp at split
  | word plain _ _ ih =>
      cases front with
      | nil =>
          cases split
          exact absurd ⟨rfl, rfl⟩ plain
      | cons record front => exact ih (List.cons.inj split).2
  | @reservation _ _ digits records _ _ _ ih =>
      match front with
      | [] =>
          cases split
          exact ⟨digits, records, rfl⟩
      | [record] => cases (List.cons.inj split).2
      | record :: constant :: front => exact ih (List.cons.inj (List.cons.inj split).2).2
  | other unplaced _ ih =>
      cases front with
      | nil =>
          cases split
          cases unplaced
      | cons record front => exact ih (List.cons.inj split).2

end Fills

/-! ## The standard instruction set -/

/-- The code of a mnemonic tells what it does to the counter. -/
def Descriptor.CodeTellsRole (descriptor : Descriptor) : Prop :=
  (descriptor.role = .start → descriptor.category = .directive ∧ descriptor.opcode = ⟨1⟩) ∧
  (descriptor.role = .origin → descriptor.category = .directive ∧ descriptor.opcode = ⟨3⟩) ∧
  (descriptor.role = .reserve ↔ descriptor.category = .declarative ∧ descriptor.opcode = ⟨2⟩)

instance (descriptor : Descriptor) : Decidable descriptor.CodeTellsRole :=
  inferInstanceAs (Decidable (_ ∧ _))

theorem InstructionSet.mem_mnemonics {set : InstructionSet} {mnemonic : String}
    {descriptor : Descriptor} (known : set.instruction? mnemonic = some descriptor) :
    (mnemonic, descriptor) ∈ set.mnemonics := by
  rcases List.lookup_eq_some_iff.mp known with ⟨before, after, isList, _⟩
  rw [mnemonics, Lexicon.toList, isList]
  exact List.mem_append_right before List.mem_cons_self

theorem InstructionSet.codeTellsRole_of_standard {mnemonic : String} {descriptor : Descriptor}
    (known : standard.instruction? mnemonic = some descriptor) : descriptor.CodeTellsRole := by
  have every : ∀ entry ∈ standard.mnemonics, entry.2.CodeTellsRole := by decide +kernel
  exact every (mnemonic, descriptor) (mem_mnemonics known)

theorem Record.address?_ofTerm (symbols : SymbolTable) (term : Term) :
    (Record.ofTerm symbols term).address? = none := by
  cases term <;> rfl

/-- One mnemonic: unless it starts or moves the counter, its records fill the
words that the counter passes over. -/
theorem Operation.fills_execute {mnemonic : String} {descriptor : Descriptor}
    {operation : Operation} (coded : descriptor.CodeTellsRole)
    (asked : ∀ role, operation.role? = some role → descriptor.role = role)
    (counted : ∀ count, operation = .reserve count →
      count.value.value = Decimal.value count.digits.toList) {state : State}
    (still : ∀ record ∈ (operation.execute mnemonic descriptor state).records,
      record.repositions = false) :
    Fills state.counter.value (operation.execute mnemonic descriptor state).records
      (operation.execute mnemonic descriptor state).state.counter.value := by
  rcases coded with ⟨ofStart, ofOrigin, ofReserve⟩
  cases operation with
  | start address =>
      rcases ofStart (asked .start rfl) with ⟨isDirective, isOne⟩
      have marked := still (.ofDescriptor none descriptor) (by
        rw [execute, records_executeStart]
        exact List.mem_cons_self)
      simp [Record.ofDescriptor, Record.repositions, isDirective, isOne] at marked
  | origin target =>
      rcases ofOrigin (asked .origin rfl) with ⟨isDirective, isThree⟩
      have marked := still (.ofDescriptor none descriptor) (by
        rw [execute, records_executeOrigin]
        exact List.mem_cons_self)
      simp [Record.ofDescriptor, Record.repositions, isDirective, isThree] at marked
  | finish => exact .other rfl (.done _)
  | equate label meaning =>
      rw [execute, records_executeEquate, counter_executeEquate]
      exact .other rfl (.other (Record.address?_ofTerm _ _) (.done _))
  | reserve count =>
      rcases ofReserve.mp (asked .reserve rfl) with ⟨isDeclarative, isTwo⟩
      rw [execute]
      rcases executeReserve_cases mnemonic descriptor count state with
        ⟨first, next, running, moved, done⟩ | ⟨_, refused⟩
      · rw [done, running, Record.ofDescriptor, isDeclarative, isTwo]
        exact .reservation (by rw [moved, counted count rfl]) (.done _)
      · rw [refused]
        exact .other rfl (.done _)
  | word =>
      have isPlain := asked .plain rfl
      rw [execute]
      rcases executeWord_cases mnemonic descriptor state with
        ⟨first, next, running, moved, done⟩ | ⟨_, refused⟩
      · rw [done, running]
        refine .word ?_ moved (.done _)
        intro isReservation
        cases isPlain.symm.trans (ofReserve.mpr isReservation)
      · rw [refused]
        exact .done _
  | malformed operands fault => exact .other rfl (.done _)

namespace Statement

theorem fills_execute {statement : Statement} {label : Option String} {tokens : List Token}
    (member : statement ∈ readAll .standard label tokens) {state : State}
    (still : ∀ record ∈ (statement.execute state).records, record.repositions = false) :
    Fills state.counter.value (statement.execute state).records
      (statement.execute state).state.counter.value := by
  cases statement with
  | instruction mnemonic descriptor operation =>
      rcases read_of_instruction_mem_readAll member with ⟨known, nearest, rest, wasRead⟩
      refine Operation.fills_execute (InstructionSet.codeTellsRole_of_standard known) ?_ ?_ still
      · exact fun role tells => descriptor_role_of_role? member tells
      · intro count isReserve
        rcases Operation.read_of_read_eq_reserve (wasRead.symm.trans isReserve) with
          ⟨operand, success⟩
        exact Numeral.value_of_read success
  | label name =>
      have same : ((Statement.label name).execute state).state.counter = state.counter :=
        State.counter_bind state name _
      rw [same]
      exact .other rfl (.done _)
  | reference name => exact .other rfl (.done _)
  | register word code => exact .other rfl (.done _)
  | condition word code => exact .other rfl (.done _)
  | constant digits => exact .other rfl (.done _)

theorem fills_executeAll {statements : List Statement} {label : Option String} {tokens : List Token}
    (wereRead : ∀ statement ∈ statements, statement ∈ readAll .standard label tokens)
    {state : State}
    (still : ∀ record ∈ (executeAll state statements).records, record.repositions = false) :
    Fills state.counter.value (executeAll state statements).records
      (executeAll state statements).state.counter.value := by
  induction statements generalizing state with
  | nil => exact .done _
  | cons statement rest ih =>
      simp only [executeAll, List.forall_mem_append] at still
      have first := fills_execute (wereRead statement List.mem_cons_self) still.1
      exact first.append
        (ih (fun other member => wereRead other (List.mem_cons_of_mem statement member)) still.2)

end Statement

/-! ## Accounts of lines and of stretches of lines -/

/-- The account of some records between two values of the counter.  The placed
ones begin at the first value, each where those before it end, and all of them
together lead to the second value.  If there is no first value, nothing is
placed, and there is no second. -/
structure Accounts (before : Option Address) (records : List Record) (after : Option Address) :
    Prop where
  counted : ∀ front first rest,
    records = front ++ .instruction (some first) .declarative ⟨2⟩ :: rest →
    ∃ digits later, rest = .constant digits :: later
  unplaced : before = none → Record.extents records = [] ∧ after = none
  placed : ∀ start, before = some start → ∃ finish, after = some finish ∧
    (∀ place extent, (Record.extents records)[place]? = some extent →
      extent.first = start.value + Extent.total ((Record.extents records).take place)) ∧
    finish.value = start.value + Extent.total (Record.extents records)

theorem Fills.accounts {before after : Option Address} {records : List Record}
    (fills : Fills before records after) : Accounts before records after where
  counted := fun _ _ _ split => fills.count_shown split
  unplaced := fills.of_none
  placed := by
    intro start isStart
    rcases fills.tiles isStart with ⟨finish, isFinish, tiles⟩
    exact ⟨finish, isFinish, fun _ _ here => tiles.first_eq here, tiles.finish_eq⟩

theorem fills_line {lines : List String} {place : Nat} {line : AssembledLine}
    (isLine : (assemble .standard lines).lines[place]? = some line)
    (still : ∀ record ∈ line.records, record.repositions = false) :
    Fills ((assemble .standard lines).counterBefore place).value line.records
      line.counter.value := by
  rw [getElem?_lines_assemble] at isLine
  rcases Option.map_eq_some_iff.mp isLine with ⟨source, isSource, same⟩
  rcases List.getElem?_eq_some_iff.mp isSource with ⟨bound, _⟩
  subst same
  rw [counterBefore_assemble .standard lines (Nat.le_of_lt bound)]
  exact Statement.fills_executeAll (fun _ member => member) still

theorem fills_stretch {lines : List String} {front stretch back : List AssembledLine}
    (split : (assemble .standard lines).lines = front ++ stretch ++ back)
    (still : ∀ line ∈ stretch, ∀ record ∈ line.records, record.repositions = false) :
    Fills ((assemble .standard lines).counterBefore front.length).value
      (stretch.flatMap AssembledLine.records)
      ((assemble .standard lines).counterBefore (front.length + stretch.length)).value := by
  induction stretch generalizing front with
  | nil => exact .done _
  | cons line rest ih =>
      have here : (assemble .standard lines).lines[front.length]? = some line := by simp [split]
      have first := fills_line here (still line List.mem_cons_self)
      have next : line.counter = (assemble .standard lines).counterBefore
          (front ++ [line]).length := by
        rw [List.length_append, List.length_singleton, Report.counterBefore, here]
        rfl
      have later := ih (by rw [split, List.append_assoc front [line] rest, List.singleton_append])
        (fun other member => still other (List.mem_cons_of_mem line member))
      rw [← next, List.length_append, List.length_singleton, Nat.add_assoc, Nat.add_comm 1] at later
      exact first.append later

/-- The storage of a program for the standard machine.  On a line that neither
starts nor moves the counter, the placed records stand at the value of the
counter before the line and onward, each as many words further as those before
it take up, and the counter goes on by the number of them all.  The same holds
of a stretch of such lines, so its placed records are contiguous, no two of
them share a word, and the counter never goes back. -/
theorem storage_accounted (lines : List String) :
    (∀ place line, (assemble .standard lines).lines[place]? = some line →
      (∀ record ∈ line.records, record.repositions = false) →
      Accounts ((assemble .standard lines).counterBefore place).value line.records
        line.counter.value) ∧
    ∀ front stretch back, (assemble .standard lines).lines = front ++ stretch ++ back →
      (∀ line ∈ stretch, ∀ record ∈ line.records, record.repositions = false) →
      let records := stretch.flatMap AssembledLine.records
      let before := ((assemble .standard lines).counterBefore front.length).value
      let after := ((assemble .standard lines).counterBefore (front.length + stretch.length)).value
      Accounts before records after ∧
      (Record.extents records).IsChain (fun one next : Extent =>
        next.first = one.first + one.words) ∧
      (Record.extents records).Pairwise Extent.Disjoint ∧
      ∀ start finish, before = some start → after = some finish → start.value ≤ finish.value := by
  refine ⟨fun place line isLine still => (fills_line isLine still).accounts, ?_⟩
  intro front stretch back split still records before after
  have fills : Fills before records after := fills_stretch split still
  refine ⟨fills.accounts, ?_⟩
  cases isBefore : before with
  | none =>
      rw [(fills.of_none isBefore).1]
      exact ⟨.nil, .nil, fun _ _ absent => by cases absent⟩
  | some start =>
      rcases fills.tiles isBefore with ⟨last, isLast, tiles⟩
      refine ⟨tiles.isChain, tiles.pairwise_disjoint, ?_⟩
      intro other finish isOther isFinish
      cases isOther
      cases isLast.symm.trans isFinish
      exact tiles.start_le

/-- Close to the greatest address a word and a reservation fit, a second
reservation does not, and after the end nothing is placed. -/
theorem storage_accounted_near_limit :
    Accounts (some ⟨9223372036854775800, by decide⟩)
      [.label "L", .instruction (some ⟨9223372036854775800, by decide⟩) .imperative ⟨1⟩,
        .register ⟨2⟩,
        .instruction (some ⟨9223372036854775801, by decide⟩) .declarative ⟨2⟩, .constant "3",
        .constant "90", .instruction none .directive ⟨2⟩]
      (some ⟨9223372036854775804, by decide⟩) ∧
    (Record.extents
      (((assemble .standard ["START 9223372036854775800", "L ADD BREG DS 3 DS 90 END ADD",
      "M ADD"]).lines.drop 1).flatMap AssembledLine.records)).Pairwise Extent.Disjoint := by
  have account :=
    storage_accounted ["START 9223372036854775800", "L ADD BREG DS 3 DS 90 END ADD", "M ADD"]
  constructor
  · have isBefore :
        ((assemble .standard ["START 9223372036854775800", "L ADD BREG DS 3 DS 90 END ADD",
          "M ADD"]).counterBefore 1).value = some ⟨9223372036854775800, by decide⟩ := by
      decide +kernel
    have isLine : (assemble .standard ["START 9223372036854775800", "L ADD BREG DS 3 DS 90 END ADD",
        "M ADD"]).lines[1]? = some ⟨2,
          [.label "L", .instruction (some ⟨9223372036854775800, by decide⟩) .imperative ⟨1⟩,
            .register ⟨2⟩,
            .instruction (some ⟨9223372036854775801, by decide⟩) .declarative ⟨2⟩, .constant "3",
            .constant "90", .instruction none .directive ⟨2⟩],
          [.addressOutOfRange, .afterEnd "ADD"],
          .ended (some ⟨9223372036854775804, by decide⟩)⟩ := by
      decide +kernel
    have line := account.1 1 _ isLine (by decide +kernel)
    rw [isBefore] at line
    exact line
  · have whole := List.take_append_drop 1 (assemble .standard
      ["START 9223372036854775800", "L ADD BREG DS 3 DS 90 END ADD", "M ADD"]).lines
    exact (account.2 _ _ [] (by rw [List.append_nil, whole]) (by decide +kernel)).2.2.1

end FirstPass
