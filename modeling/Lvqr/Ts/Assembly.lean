import Lvqr.Lib.Machine
import Lvqr.Ts.Sections

set_option autoImplicit false

-- Program tables as the packets of one PID carry them, against what the demuxer
-- takes for a table: the bytes behind the pointer field, or a whole payload.
namespace Lvqr.Ts

structure Carried where
  pusi : Bool
  payload : Bytes
deriving DecidableEq, Repr

-- The section at the front of some bytes, if all of it is there. A table id of
-- 0xFF is stuffing up to the end of the packet.
def takeSection (data : Bytes) : Option (Bytes × Bytes) :=
  if data.length < 3 ∨ data.head? = some 0xFF ∨ data.length < 3 + lengthAt data 1 then none
  else some (data.take (3 + lengthAt data 1), data.drop (3 + lengthAt data 1))

theorem take_section_some (data whole rest : Bytes) (taken : takeSection data = some (whole, rest)) :
    3 ≤ data.length ∧ data.head? ≠ some 0xFF ∧ 3 + lengthAt data 1 ≤ data.length ∧
      whole = data.take (3 + lengthAt data 1) ∧ rest = data.drop (3 + lengthAt data 1) := by
  unfold takeSection at taken
  split at taken
  · cases taken
  · rename_i enough
    simp only [not_or, Nat.not_lt] at enough
    obtain ⟨rfl, rfl⟩ := Prod.mk.inj (Option.some.inj taken)
    exact ⟨enough.1, enough.2.1, enough.2.2, rfl, rfl⟩

theorem take_section_append (whole : Section) (rest : Bytes) :
    takeSection (whole.bytes ++ rest) = some (whole.bytes, rest) := by
  have long := section_length whole
  have length : lengthAt (whole.bytes ++ rest) 1 = lengthAt whole.bytes 1 := length_at_append whole.bytes rest long
  have head : (whole.bytes ++ rest).head? ≠ some 0xFF := by
    have tableId := whole.tableId
    cases bytes : whole.bytes with
    | nil => simp [bytes] at long
    | cons byte tail =>
        rw [bytes] at tableId
        exact tableId
  have size : (whole.bytes ++ rest).length = whole.bytes.length + rest.length := List.length_append
  have sized := whole.sized
  rw [takeSection, if_neg, length, ← sized, List.take_left, List.drop_left]
  rw [length, size]
  simp only [head, false_or]
  omega

theorem take_section_shrinks (data whole rest : Bytes) (taken : takeSection data = some (whole, rest)) :
    rest.length < data.length := by
  obtain ⟨long, _, _, _, rfl⟩ := take_section_some data whole rest taken
  rw [List.length_drop]
  omega

theorem take_section_stable (data more whole rest : Bytes) (taken : takeSection data = some (whole, rest)) :
    takeSection (data ++ more) = some (whole, rest ++ more) := by
  obtain ⟨long, head, enough, rfl, rfl⟩ := take_section_some data whole rest taken
  have length := length_at_append data more long
  have sameHead : (data ++ more).head? = data.head? := by
    rw [List.head?_append, List.head?_eq_some_head (List.ne_nil_of_length_pos (by omega))]
    rfl
  rw [takeSection, if_neg, length, List.take_append_of_le_length enough, List.drop_append_of_le_length enough]
  rw [length, sameHead, List.length_append]
  simp only [head, false_or]
  omega

def sectionFramer : Framer UInt8 Bytes := ⟨takeSection, take_section_shrinks, take_section_stable⟩

theorem frames_sections (sections : List Section) (rest : Bytes) :
    sectionFramer.frames (sectionBytes sections ++ rest) =
      (sections.map Section.bytes ++ (sectionFramer.frames rest).1, (sectionFramer.frames rest).2) := by
  induction sections with
  | nil => rfl
  | cons first sections ih =>
      have split : sectionBytes (first :: sections) ++ rest = first.bytes ++ (sectionBytes sections ++ rest) := by
        rw [sectionBytes, List.flatMap_cons, List.append_assoc]
        rfl
      rw [split, sectionFramer.frames_some _ _ _ (take_section_append first _), ih]
      rfl

namespace Carried

-- The bytes in front of the pointer's target go on with the section before.
def continued (carried : Carried) : Bytes :=
  if carried.pusi then (carried.payload.drop 1).take (byteAt carried.payload 0) else carried.payload

def begun (carried : Carried) : Bytes :=
  if carried.pusi then carried.payload.drop (1 + byteAt carried.payload 0) else []

-- The section that an earlier packet began and this one ends.
def ended (opened : Bytes) (carried : Carried) : List Bytes :=
  if opened = [] then [] else ((takeSection (opened ++ carried.continued)).map Prod.fst).toList

def started (carried : Carried) : List Bytes := (sectionFramer.frames carried.begun).1

def completed (opened : Bytes) (carried : Carried) : List Bytes := carried.ended opened ++ carried.started

def leftOpen (opened : Bytes) (carried : Carried) : Bytes :=
  if carried.pusi then
    let left := (sectionFramer.frames carried.begun).2
    if left.head? = some 0xFF then [] else left
  else if opened = [] ∨ (takeSection (opened ++ carried.payload)).isSome then []
  else opened ++ carried.payload

end Carried

def IsTable (tableId : UInt8) (minimum : Nat) (data : Bytes) : Prop :=
  data.head? = some tableId ∧ minimum ≤ lengthAt data 1

instance (tableId : UInt8) (minimum : Nat) (data : Bytes) : Decidable (IsTable tableId minimum data) :=
  inferInstanceAs (Decidable (_ ∧ _))

-- What both table parsers take for a section: nothing but its length is checked.
def readTable (minimum : Nat) (carried : Carried) : Option Bytes :=
  (tableData carried.payload carried.pusi).bind fun data =>
    if data.length < 3 + minimum ∨ 3 + lengthAt data 1 > data.length ∨ lengthAt data 1 < minimum then none
    else some (data.take (3 + lengthAt data 1))

-- A packet that the parsers read as it is meant: a payload without a section's
-- start does not look like a table, what is read has the table's id, and no table
-- ends here that began in an earlier packet or behind another section.
structure InPlace (tableId : UInt8) (minimum : Nat) (opened : Bytes) (carried : Carried) : Prop where
  fresh : carried.pusi = false → readTable minimum carried = none
  typed : ∀ table ∈ readTable minimum carried, table.head? = some tableId
  alone : ∀ table ∈ carried.ended opened, ¬ IsTable tableId minimum table
  single : ∀ table ∈ carried.started.tail, ¬ IsTable tableId minimum table

instance (tableId : UInt8) (minimum : Nat) (opened : Bytes) (carried : Carried) :
    Decidable (InPlace tableId minimum opened carried) :=
  decidable_of_iff
    ((carried.pusi = false → readTable minimum carried = none) ∧
      (∀ table ∈ readTable minimum carried, table.head? = some tableId) ∧
      (∀ table ∈ carried.ended opened, ¬ IsTable tableId minimum table) ∧
      ∀ table ∈ carried.started.tail, ¬ IsTable tableId minimum table)
    ⟨fun ⟨fresh, typed, alone, single⟩ => ⟨fresh, typed, alone, single⟩,
      fun ⟨fresh, typed, alone, single⟩ => ⟨fresh, typed, alone, single⟩⟩

inductive Continues : OpenSection → List Carried → Prop where
  | last (left : OpenSection) (stuffing : Nat) :
      Continues left [⟨false, left.rest ++ List.replicate stuffing 0xFF⟩]
  | middle (left next : OpenSection) (payload : Bytes) (packets : List Carried) (same : next.whole = left.whole)
      (sent : next.sent = left.sent ++ payload) (later : Continues next packets) :
      Continues left (⟨false, payload⟩ :: packets)

-- The legal splits of a section. Only the first packet has a pointer field; in
-- front of the section it may hold the end of another and whole ones.
inductive Splits (whole : Section) : List Carried → Prop where
  | single (skipped : Bytes) (front : List Section) (stuffing : Nat) (fits : skipped.length < 256) :
      Splits whole [⟨true, UInt8.ofNat skipped.length ::
        (skipped ++ (sectionBytes front ++ (whole.bytes ++ List.replicate stuffing 0xFF)))⟩]
  | several (skipped : Bytes) (front : List Section) (first : OpenSection) (packets : List Carried)
      (same : first.whole = whole) (fits : skipped.length < 256) (later : Continues first packets) :
      Splits whole (⟨true, UInt8.ofNat skipped.length :: (skipped ++ (sectionBytes front ++ first.sent))⟩ :: packets)

theorem begun_pointer (skipped area : Bytes) (fits : skipped.length < 256) :
    (⟨true, UInt8.ofNat skipped.length :: (skipped ++ area)⟩ : Carried).begun = area := by
  have pointer : byteAt (UInt8.ofNat skipped.length :: (skipped ++ area)) 0 = skipped.length := Bits.byte_value _ fits
  rw [Carried.begun, if_pos rfl]
  dsimp only
  rw [pointer, Nat.add_comm, List.drop_succ_cons, List.drop_left]

theorem take_open (left : OpenSection) : takeSection left.sent = none := by
  cases taken : takeSection left.sent with
  | none => rfl
  | some found =>
      obtain ⟨found, rest⟩ := found
      obtain ⟨long, _, enough, _, _⟩ := take_section_some _ _ _ taken
      exact absurd enough (Nat.not_le.mpr (open_short left long))

theorem open_head (left : OpenSection) : left.sent.head? = left.whole.bytes.head? := by
  cases sent : left.sent with
  | nil => exact absurd sent left.begun
  | cons byte rest =>
      rw [← left.split, sent]
      rfl

theorem left_open_started (skipped : Bytes) (front : List Section) (first : OpenSection) (opened : Bytes)
    (fits : skipped.length < 256) :
    (⟨true, UInt8.ofNat skipped.length :: (skipped ++ (sectionBytes front ++ first.sent))⟩ : Carried).leftOpen opened =
      first.sent := by
  have head : first.sent.head? ≠ some 0xFF := by
    rw [open_head]
    exact first.whole.tableId
  rw [Carried.leftOpen, if_pos rfl, begun_pointer skipped _ fits, frames_sections,
    sectionFramer.frames_none _ (take_open first)]
  dsimp only
  rw [if_neg head]

theorem left_open_continued (left next : OpenSection) (payload : Bytes) (sent : next.sent = left.sent ++ payload) :
    (⟨false, payload⟩ : Carried).leftOpen left.sent = next.sent := by
  have unfinished : ¬ (left.sent = [] ∨ (takeSection (left.sent ++ payload)).isSome) := by
    rw [← sent, take_open next]
    simp [left.begun]
  rw [Carried.leftOpen, if_neg Bool.false_ne_true, if_neg unfinished, sent]

def Carried.next (opened : Bytes) (carried : Carried) : Bytes := carried.leftOpen opened

section Placement

variable {tableId : UInt8} {minimum : Nat}

-- The packet that ends a table is not the one that began it.
theorem continues_misplaced (left : OpenSection) (packets : List Carried) (continues : Continues left packets)
    (isTable : IsTable tableId minimum left.whole.bytes) :
    ¬ Machine.AllSteps (InPlace tableId minimum) Carried.next left.sent packets := by
  induction continues with
  | last left stuffing =>
      rintro ⟨inPlace, _⟩
      have ended : left.whole.bytes ∈
          (⟨false, left.rest ++ List.replicate stuffing 0xFF⟩ : Carried).ended left.sent := by
        rw [Carried.ended, if_neg left.begun, Carried.continued, if_neg Bool.false_ne_true]
        dsimp only
        rw [← List.append_assoc, left.split, take_section_append]
        exact List.mem_cons_self
      exact inPlace.alone _ ended isTable
  | middle left next payload packets same sent later ih =>
      rintro ⟨_, others⟩
      have kept : Carried.next left.sent ⟨false, payload⟩ = next.sent := left_open_continued left next payload sent
      rw [kept] at others
      rw [← same] at isTable
      exact ih isTable others

theorem read_whole (skipped : Bytes) (whole : Section) (stuffing : Nat) (fits : skipped.length < 256)
    (minimal : minimum ≤ lengthAt whole.bytes 1) :
    readTable minimum ⟨true, UInt8.ofNat skipped.length :: (skipped ++ (whole.bytes ++ List.replicate stuffing 0xFF))⟩ =
      some whole.bytes := by
  have sized := whole.sized
  have long := section_length whole
  have pointer : byteAt (UInt8.ofNat skipped.length ::
      (skipped ++ (whole.bytes ++ List.replicate stuffing 0xFF))) 0 = skipped.length := Bits.byte_value _ fits
  have inside : ¬ 1 + skipped.length ≥ (UInt8.ofNat skipped.length ::
      (skipped ++ (whole.bytes ++ List.replicate stuffing 0xFF))).length := by
    simp only [List.length_cons, List.length_append]
    omega
  have data : tableData (UInt8.ofNat skipped.length ::
      (skipped ++ (whole.bytes ++ List.replicate stuffing 0xFF))) true =
        some (whole.bytes ++ List.replicate stuffing 0xFF) := by
    rw [tableData, if_pos (by rfl), pointer]
    dsimp only
    rw [if_neg inside, Nat.add_comm, List.drop_succ_cons, List.drop_left]
  have length : lengthAt (whole.bytes ++ List.replicate stuffing 0xFF) 1 = lengthAt whole.bytes 1 :=
    length_at_append _ _ long
  have size : (whole.bytes ++ List.replicate stuffing 0xFF).length = whole.bytes.length + stuffing := by
    rw [List.length_append, List.length_replicate]
  rw [readTable, data, Option.bind_some, length, size, if_neg (by omega), ← sized, List.take_left]

theorem split_in_place (whole : Section) (packets : List Carried) (split : Splits whole packets) (opened : Bytes)
    (isTable : IsTable tableId minimum whole.bytes)
    (allowed : Machine.AllSteps (InPlace tableId minimum) Carried.next opened packets) :
    ∃ carried, packets = [carried] ∧ readTable minimum carried = some whole.bytes := by
  cases split with
  | several skipped front first packets same fits later =>
      have kept : Carried.next opened _ = first.sent := left_open_started skipped front first opened fits
      have others := allowed.2
      rw [kept] at others
      rw [← same] at isTable
      exact absurd others (continues_misplaced first packets later isTable)
  | single skipped front stuffing fits =>
      refine ⟨_, rfl, ?_⟩
      cases front with
      | nil => exact read_whole skipped whole stuffing fits isTable.2
      | cons before front =>
          have behind : whole.bytes ∈ (⟨true, UInt8.ofNat skipped.length :: (skipped ++
              (sectionBytes (before :: front) ++ (whole.bytes ++ List.replicate stuffing 0xFF)))⟩ : Carried).started.tail := by
            have last := sectionFramer.frames_some _ _ _ (take_section_append whole (List.replicate stuffing 0xFF))
            rw [Carried.started, begun_pointer skipped _ fits, frames_sections, last]
            simp
          exact absurd isTable (allowed.1.single _ behind)

-- A table that is read in place is a section that ends in its packet.
theorem read_completed (opened : Bytes) (carried : Carried) (inPlace : InPlace tableId minimum opened carried)
    (notStuffing : tableId ≠ 0xFF) (table : Bytes) (read : readTable minimum carried = some table) :
    table ∈ carried.completed opened ∧ IsTable tableId minimum table := by
  obtain ⟨pusi, payload⟩ := carried
  have starts : pusi = true := by
    cases pusi with
    | true => rfl
    | false =>
        rw [inPlace.fresh rfl] at read
        cases read
  have typed := inPlace.typed table read
  subst starts
  obtain ⟨data, isData, rest⟩ := Option.bind_eq_some_iff.mp read
  split at rest
  · cases rest
  · rename_i enough
    simp only [not_or, Nat.not_lt] at enough
    obtain ⟨long, inside, minimal⟩ := enough
    obtain rfl := Option.some.inj rest
    have begun : (⟨true, payload⟩ : Carried).begun = data := by
      rw [Carried.begun, if_pos rfl]
      dsimp only [tableData] at isData
      split at isData
      · split at isData
        · cases isData
        · exact Option.some.inj isData
      · rename_i empty
        obtain rfl : payload = [] := by simpa using empty
        obtain rfl := Option.some.inj isData
        rfl
    have head : data.head? = some tableId := by
      cases data with
      | nil =>
          rw [List.length_nil] at long
          omega
      | cons byte tail =>
          rw [Nat.add_comm, List.take_succ_cons] at typed
          exact typed
    have taken : takeSection data = some (data.take (3 + lengthAt data 1), data.drop (3 + lengthAt data 1)) := by
      rw [takeSection, if_neg]
      rw [head]
      simp only [not_or, Nat.not_lt, Option.some.injEq]
      exact ⟨by omega, notStuffing, inside⟩
    have length : lengthAt (data.take (3 + lengthAt data 1)) 1 = lengthAt data 1 := by
      have whole := length_at_append (data.take (3 + lengthAt data 1)) (data.drop (3 + lengthAt data 1))
        (by rw [List.length_take]; omega)
      rw [List.take_append_drop] at whole
      exact whole.symm
    refine ⟨List.mem_append_right _ ?_, typed, by rw [length]; exact minimal⟩
    rw [Carried.started, begun, sectionFramer.frames_some _ _ _ taken]
    exact List.mem_cons_self

end Placement

end Lvqr.Ts
