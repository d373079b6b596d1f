import Lvqr.Codec.SplitStreams

set_option autoImplicit false

-- The conversion in front of the RTP packetizer, from lengths to start codes, and the
-- way back through the WHIP ingest.
namespace Lvqr.Whep

open Codec

def START_CODE : Bytes := [0x00, 0x00, 0x00, 0x01]

-- `avcc` is the buffer from the source's `i` on.
def avccToAnnexB (avcc : Bytes) : Bytes :=
  if 4 ≤ avcc.length then
    let len := BigEndian.value (avcc.take 4)
    let rest := avcc.drop 4
    if len = 0 then avccToAnnexB rest
    else if rest.length < len then []
    else START_CODE ++ (rest.take len ++ avccToAnnexB (rest.drop len))
  else []
termination_by avcc.length
decreasing_by all_goals simp only [List.length_drop]; omega

-- The length field, or what it counts, is not all there.
def Truncated (data : Bytes) : Prop := data.length < 4 ∨ data.length < 4 + BigEndian.value (data.take 4)

-- A buffer is its entries up to the first truncated one.
structure ReadsAs (data : Bytes) (entries : List Bytes) (tail : Bytes) : Prop where
  whole : data = lengthPrefixed entries ++ tail
  counted : ∀ entry ∈ entries, entry.length < 2 ^ 32
  truncated : Truncated tail

def startCoded (nals : List Bytes) : Bytes := nals.flatMap (START_CODE ++ ·)

theorem prefixed_cons (entry : Bytes) (entries : List Bytes) (tail : Bytes) :
    lengthPrefixed (entry :: entries) ++ tail =
      BigEndian.bytes 4 entry.length ++ (entry ++ (lengthPrefixed entries ++ tail)) := by
  rw [lengthPrefixed, List.flatMap_cons, List.append_assoc, List.append_assoc]
  rfl

theorem header_length (entry : Bytes) : (BigEndian.bytes 4 entry.length).length = 4 := BigEndian.bytes_length _ _

theorem convert_truncated (tail : Bytes) (truncated : Truncated tail) : avccToAnnexB tail = [] := by
  rw [avccToAnnexB]
  by_cases header : 4 ≤ tail.length
  · have cut : (tail.drop 4).length < BigEndian.value (tail.take 4) := by
      rw [List.length_drop]
      cases truncated with
      | inl short => omega
      | inr short => omega
    have counted : BigEndian.value (tail.take 4) ≠ 0 := by omega
    rw [if_pos header]
    dsimp only
    rw [if_neg counted, if_pos cut]
  · rw [if_neg header]

theorem convert_entry (entry rest : Bytes) (counted : entry.length < 2 ^ 32) :
    avccToAnnexB (BigEndian.bytes 4 entry.length ++ (entry ++ rest)) =
      (if entry = [] then [] else START_CODE ++ entry) ++ avccToAnnexB rest := by
  have header : 4 ≤ (BigEndian.bytes 4 entry.length ++ (entry ++ rest)).length := by
    rw [List.length_append, header_length]
    omega
  have len : BigEndian.value (BigEndian.bytes 4 entry.length) = entry.length := BigEndian.value_bytes 4 _ counted
  rw [avccToAnnexB, if_pos header]
  dsimp only
  rw [List.take_left' (header_length entry), List.drop_left' (header_length entry), len]
  by_cases empty : entry = []
  · subst empty
    rfl
  · have counts : entry.length ≠ 0 := fun nothing => empty (List.length_eq_zero_iff.mp nothing)
    have inside : ¬ (entry ++ rest).length < entry.length := by
      rw [List.length_append]
      omega
    rw [if_neg counts, if_neg inside, List.take_left, List.drop_left, if_neg empty, List.append_assoc]

theorem convert_read (data : Bytes) (entries : List Bytes) (tail : Bytes) (reads : ReadsAs data entries tail) :
    avccToAnnexB data = startCoded (entries.filter (· ≠ [])) := by
  obtain ⟨rfl, counted, truncated⟩ := reads
  induction entries with
  | nil => exact convert_truncated tail truncated
  | cons entry entries ih =>
      obtain ⟨here, later⟩ := List.forall_mem_cons.mp counted
      rw [prefixed_cons, convert_entry entry _ here, ih later]
      by_cases empty : entry = []
      · simp [empty]
      · simp [empty, startCoded]

theorem full_entry (entry rest : Bytes) (counted : entry.length < 2 ^ 32) :
    ¬ Truncated (BigEndian.bytes 4 entry.length ++ (entry ++ rest)) := by
  have len : BigEndian.value (BigEndian.bytes 4 entry.length) = entry.length := BigEndian.value_bytes 4 _ counted
  rw [Truncated, List.take_left' (header_length entry), len, List.length_append, header_length, List.length_append]
  omega

theorem exists_reading (data : Bytes) : ∃ entries tail, ReadsAs data entries tail := by
  induction size : data.length using Nat.strong_induction_on generalizing data with
  | _ size ih =>
      by_cases truncated : Truncated data
      · exact ⟨[], data, rfl, fun entry member => absurd member List.not_mem_nil, truncated⟩
      · obtain ⟨long, full⟩ := not_or.mp truncated
        have bound : BigEndian.value (data.take 4) < 256 ^ (data.take 4).length := BigEndian.value_lt _
        have header : (data.take 4).length = 4 := List.length_take_of_le (Nat.not_lt.mp long)
        have body : ((data.drop 4).take (BigEndian.value (data.take 4))).length = BigEndian.value (data.take 4) := by
          refine List.length_take_of_le ?_
          rw [List.length_drop]
          omega
        obtain ⟨entries, tail, reads⟩ := ih ((data.drop 4).drop (BigEndian.value (data.take 4))).length
          (by rw [List.length_drop, List.length_drop]; omega) _ rfl
        refine ⟨(data.drop 4).take (BigEndian.value (data.take 4)) :: entries, tail, ?_, ?_, reads.truncated⟩
        · have field := BigEndian.bytes_value (data.take 4)
          rw [header] at field
          rw [prefixed_cons, body, field, ← reads.whole, List.take_append_drop, List.take_append_drop]
        · refine List.forall_mem_cons.mpr ⟨?_, reads.counted⟩
          rw [body]
          rwa [header] at bound

theorem reading_unique (data : Bytes) (entries others : List Bytes) (tail last : Bytes)
    (reads : ReadsAs data entries tail) (again : ReadsAs data others last) : entries = others ∧ tail = last := by
  obtain ⟨rfl, counted, truncated⟩ := reads
  obtain ⟨same, countedToo, truncatedToo⟩ := again
  induction entries generalizing others with
  | nil =>
      cases others with
      | nil => exact ⟨rfl, same⟩
      | cons other others =>
          have here := countedToo other List.mem_cons_self
          rw [prefixed_cons] at same
          have stays : lengthPrefixed [] ++ tail = tail := rfl
          rw [stays] at same
          exact absurd (same ▸ truncated) (full_entry other _ here)
  | cons entry entries ih =>
      obtain ⟨here, later⟩ := List.forall_mem_cons.mp counted
      cases others with
      | nil =>
          rw [prefixed_cons] at same
          have stays : lengthPrefixed [] ++ last = last := rfl
          rw [stays] at same
          exact absurd (same ▸ truncatedToo) (full_entry entry _ here)
      | cons other others =>
          obtain ⟨hereToo, laterToo⟩ := List.forall_mem_cons.mp countedToo
          rw [prefixed_cons, prefixed_cons] at same
          obtain ⟨field, behind⟩ := List.append_inj same (by rw [header_length, header_length])
          have length : entry.length = other.length := by
            rw [← BigEndian.value_bytes 4 _ here, field, BigEndian.value_bytes 4 _ hereToo]
          obtain ⟨rfl, remaining⟩ := List.append_inj behind length
          obtain ⟨rfl, rfl⟩ := ih others later remaining laterToo
          exact ⟨rfl, rfl⟩

-- A unit that a length field of four bytes can count.
structure CountedUnit extends NalUnit where
  counted : bytes.length < 2 ^ 32

-- In front of another start code of four bytes, or at the end, a unit may end in zeros.
theorem unbroken_plain (nal rest suffix : Bytes) (unbroken : Unbroken nal) (follows : rest = [] ∨ START_CODE <+: rest)
    (isSuffix : suffix <:+ nal) (present : suffix ≠ []) : ¬ StartsCode (suffix ++ rest) := by
  have inside := unbroken_suffix nal suffix unbroken isSuffix
  cases follows with
  | inl atEnd =>
      subst atEnd
      rw [List.append_nil]
      rintro (⟨more, rfl⟩ | ⟨more, rfl⟩)
      · exact inside.2 ⟨[], more, rfl⟩
      · exact inside.1 ⟨[], 1 :: more, rfl⟩
  | inr code =>
      obtain ⟨behind, rfl⟩ := code
      match suffix, present, inside with
      | [first], _, _ => simp [StartsCode, START_CODE]
      | [first, second], _, _ => simp [StartsCode, START_CODE]
      | first :: second :: third :: more, _, inside =>
          rintro (⟨rest, starts⟩ | ⟨rest, starts⟩)
          · obtain ⟨rfl, fromSecond⟩ := List.cons.inj starts
            obtain ⟨rfl, fromThird⟩ := List.cons.inj fromSecond
            obtain ⟨rfl, -⟩ := List.cons.inj fromThird
            exact inside.2 ⟨[], more, rfl⟩
          · obtain ⟨rfl, fromSecond⟩ := List.cons.inj starts
            obtain ⟨rfl, fromThird⟩ := List.cons.inj fromSecond
            obtain ⟨rfl, -⟩ := List.cons.inj fromThird
            exact inside.1 ⟨[], more, rfl⟩

theorem split_start_coded (current : Option Bytes) (units : List CountedUnit) :
    splitFrom current (startCoded (units.map fun unit => unit.bytes)) =
      emitted current ++ units.map fun unit => unit.bytes := by
  induction units generalizing current with
  | nil => exact (split_nil current).trans (List.append_nil _).symm
  | cons unit units ih =>
      have follows : startCoded (units.map fun unit => unit.bytes) = [] ∨
          START_CODE <+: startCoded (units.map fun unit => unit.bytes) := by
        cases units with
        | nil => exact .inl rfl
        | cons next units => exact .inr ⟨_, (List.append_assoc _ _ _).symm⟩
      have code : startCoded ((unit :: units).map fun unit => unit.bytes) =
          0 :: 0 :: 0 :: 1 :: (unit.bytes ++ startCoded (units.map fun unit => unit.bytes)) := rfl
      rw [code, split_long, split_past _ unit.bytes _ fun suffix => unbroken_plain unit.bytes _ suffix unit.unbroken follows,
        Option.map_some, List.nil_append, ih, emitted_some _ unit.present]
      rfl

theorem annex_b_avcc_inverse :
    (∀ units : List CountedUnit,
        Whip.Depack.annexBToAvcc (avccToAnnexB (lengthPrefixed (units.map fun unit => unit.bytes))) =
      lengthPrefixed (units.map fun unit => unit.bytes)) ∧
    ∀ data, (∃ entries tail, ReadsAs data entries tail) ∧ ∀ entries tail, ReadsAs data entries tail →
      avccToAnnexB data = startCoded (entries.filter (· ≠ [])) ∧
        ∀ others last, ReadsAs data others last → entries = others ∧ tail = last := by
  refine ⟨fun units => ?_, fun data => ⟨exists_reading data, fun entries tail reads => ?_⟩⟩
  · have reads : ReadsAs (lengthPrefixed (units.map fun unit => unit.bytes)) (units.map fun unit => unit.bytes) [] := by
      refine ⟨(List.append_nil _).symm, List.forall_mem_map.mpr fun unit _ => unit.counted, .inl (by decide)⟩
    have all : (units.map fun unit => unit.bytes).filter (· ≠ []) = units.map fun unit => unit.bytes :=
      List.filter_eq_self.mpr (List.forall_mem_map.mpr fun unit _ => decide_eq_true unit.present)
    rw [convert_read _ _ _ reads, all, Whip.Depack.annex_b_to_avcc_eq, splitAnnexB, split_start_coded]
    rfl
  · exact ⟨convert_read data entries tail reads, fun others last => reading_unique data entries others tail last reads⟩

example : avccToAnnexB [0, 0, 0, 2, 0x65, 0, 0, 0, 0, 0, 0, 0, 0, 9, 1] = [0, 0, 0, 1, 0x65, 0] := by decide +kernel

end Lvqr.Whep
