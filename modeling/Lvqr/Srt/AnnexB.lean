import Lvqr.Codec.AnnexB

set_option autoImplicit false

-- The Annex B splitter of the SRT ingest as it runs, by positions in the buffer.
namespace Lvqr.Srt.AnnexB

open Codec

-- `sc_len`, none where no start code stands at the position.
def startCodeLen (data : Bytes) (i : Nat) : Option Nat :=
  if ShortCodeAt data i then some 3 else if LongCodeAt data i then some 4 else none

-- The loop over `end`.
def nextStartCode (data : Bytes) (stop : Nat) : Nat :=
  if _inside : stop < data.length then
    if stop + 3 ≤ data.length ∧ data.getD stop 0 = 0 ∧ data.getD (stop + 1) 0 = 0 ∧
        (data.getD (stop + 2) 0 = 1 ∨
          data.getD (stop + 2) 0 = 0 ∧ stop + 4 ≤ data.length ∧ data.getD (stop + 3) 0 = 1) then stop
    else nextStartCode data (stop + 1)
  else stop
termination_by data.length - stop

theorem next_start_code_ge (data : Bytes) (stop : Nat) : stop ≤ nextStartCode data stop := by
  induction stop using nextStartCode.induct data with
  | case1 stop inside found => rw [nextStartCode, dif_pos inside, if_pos found]
  | case2 stop inside plain ih =>
      rw [nextStartCode, dif_pos inside, if_neg plain]
      exact Nat.le_of_succ_le ih
  | case3 stop outside => rw [nextStartCode, dif_neg outside]

theorem start_code_len_pos (data : Bytes) (i len : Nat) (found : startCodeLen data i = some len) : 0 < len := by
  rw [startCodeLen] at found
  split at found
  · rw [← Option.some.inj found]
    decide
  · split at found
    · rw [← Option.some.inj found]
      decide
    · cases found

def splitLoop (data : Bytes) (i : Nat) : List Bytes :=
  if _inside : i < data.length then
    match _found : startCodeLen data i with
    | none => splitLoop data (i + 1)
    | some len =>
        let naluStart := i + len
        let stop := nextStartCode data naluStart
        (if naluStart < stop then [slice data naluStart stop] else []) ++ splitLoop data stop
  else []
termination_by data.length - i
decreasing_by
  · omega
  · have positive := start_code_len_pos data i len _found
    have later := next_start_code_ge data (i + len)
    omega

def splitAnnexB (data : Bytes) : List Bytes := splitLoop data 0

-- `len` is a u32 cast.
def annexBToAvcc (data : Bytes) : Bytes :=
  (splitAnnexB data).flatMap fun nalu =>
    if nalu.isEmpty then []
    else if isAvcParameterSet nalu then []
    else BigEndian.bytes 4 nalu.length ++ nalu

theorem stops_at_code_iff (data : Bytes) (stop : Nat) :
    (stop + 3 ≤ data.length ∧ data.getD stop 0 = 0 ∧ data.getD (stop + 1) 0 = 0 ∧
      (data.getD (stop + 2) 0 = 1 ∨ data.getD (stop + 2) 0 = 0 ∧ stop + 4 ≤ data.length ∧ data.getD (stop + 3) 0 = 1)) ↔
      StartsCode (data.drop stop) := by
  rw [starts_code_iff]
  constructor
  · rintro ⟨bound, first, second, third | ⟨third, longer, fourth⟩⟩
    · exact .inl ⟨bound, first, second, third⟩
    · exact .inr ⟨longer, first, second, third, fourth⟩
  · rintro (⟨bound, first, second, third⟩ | ⟨longer, first, second, third, fourth⟩)
    · exact ⟨bound, first, second, .inl third⟩
    · exact ⟨by omega, first, second, .inr ⟨third, longer, fourth⟩⟩

-- The pass that collects a unit emits it where the search for the next code ends.
theorem split_collecting (data : Bytes) (start stop : Nat) (ordered : start ≤ stop) (inside : stop ≤ data.length) :
    splitFrom (some (slice data start stop)) (data.drop stop) =
      (if start < nextStartCode data stop then [slice data start (nextStartCode data stop)] else []) ++
        splitFrom none (data.drop (nextStartCode data stop)) := by
  induction stop using nextStartCode.induct data with
  | case1 stop bound found =>
      rw [nextStartCode, dif_pos bound, if_pos found, ← emitted_slice data start stop inside]
      have code := (starts_code_iff data stop).mp ((stops_at_code_iff data stop).mp found)
      cases code with
      | inl short => rw [split_drop_short _ data stop short, split_drop_short _ data stop short]; rfl
      | inr long => rw [split_drop_long _ data stop long, split_drop_long _ data stop long]; rfl
  | case2 stop bound plain ih =>
      have noCode : ¬ StartsCode (data.drop stop) := fun code => plain ((stops_at_code_iff data stop).mpr code)
      rw [nextStartCode, dif_pos bound, if_neg plain, split_drop_plain _ data stop bound noCode, Option.map_some,
        ← slice_snoc data start stop ordered bound]
      exact ih (Nat.le_succ_of_le ordered) bound
  | case3 stop outside =>
      have atEnd : data.length ≤ stop := Nat.not_lt.mp outside
      rw [nextStartCode, dif_neg outside, split_drop_end _ data stop atEnd, split_drop_end _ data stop atEnd,
        emitted_slice data start stop inside]
      exact (List.append_nil _).symm

theorem split_loop_eq (data : Bytes) (i : Nat) : splitLoop data i = splitFrom none (data.drop i) := by
  induction i using splitLoop.induct data with
  | case1 i inside absent ih =>
      have noCode : ¬ StartsCode (data.drop i) := by
        rw [starts_code_iff]
        rintro (short | long)
        · rw [startCodeLen, if_pos short] at absent
          cases absent
        · by_cases short : ShortCodeAt data i
          · rw [startCodeLen, if_pos short] at absent
            cases absent
          · rw [startCodeLen, if_neg short, if_pos long] at absent
            cases absent
      rw [splitLoop, dif_pos inside]
      split
      · rw [ih, split_drop_plain none data i inside noCode]
        rfl
      · rename_i len found
        rw [found] at absent
        cases absent
  | case2 i inside len found naluStart stop ih =>
      have behind : splitFrom none (data.drop i) = splitFrom (some []) (data.drop (i + len)) ∧ i + len ≤ data.length := by
        rw [startCodeLen] at found
        split at found
        · rename_i short
          obtain rfl := Option.some.inj found
          exact ⟨split_drop_short none data i short, short.1⟩
        · split at found
          · rename_i long
            obtain rfl := Option.some.inj found
            exact ⟨split_drop_long none data i long, long.1⟩
          · cases found
      have collected := split_collecting data (i + len) (i + len) (Nat.le_refl _) behind.2
      rw [slice_nil] at collected
      rw [splitLoop, dif_pos inside, behind.1, collected]
      split
      · rename_i absent
        rw [absent] at found
        cases found
      · rename_i other same
        rw [found] at same
        obtain rfl := Option.some.inj same
        exact congrArg _ ih
  | case3 i outside =>
      rw [splitLoop, dif_neg outside, split_drop_end none data i (Nat.not_lt.mp outside)]
      rfl

theorem split_annex_b_eq (data : Bytes) : splitAnnexB data = Codec.splitAnnexB data := by
  rw [splitAnnexB, split_loop_eq, List.drop_zero, Codec.splitAnnexB]

theorem annex_b_to_avcc_eq (data : Bytes) :
    annexBToAvcc data = lengthPrefixed ((Codec.splitAnnexB data).filter fun nal => !isAvcParameterSet nal) := by
  rw [annexBToAvcc, split_annex_b_eq]
  have nonempty : [] ∉ Codec.splitAnnexB data := split_nonempty none data
  revert nonempty
  generalize Codec.splitAnnexB data = nals
  intro nonempty
  induction nals with
  | nil => rfl
  | cons nal nals ih =>
      obtain ⟨here, later⟩ := not_or.mp (List.mem_cons.not.mp nonempty)
      have present : nal.isEmpty = false := List.isEmpty_eq_false_iff.mpr (Ne.symm here)
      rw [List.flatMap_cons, ih later, present]
      by_cases skipped : isAvcParameterSet nal = true
      · simp [skipped]
      · simp [skipped, lengthPrefixed]

end Lvqr.Srt.AnnexB
