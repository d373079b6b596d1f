import Lvqr.Codec.AnnexB

set_option autoImplicit false

-- The Annex B splitter of the WHIP ingest as it runs: the start codes first, then the
-- units between them.
namespace Lvqr.Whip.Depack

open Codec

structure StartCodeRun where
  start : Nat
  stop : Nat
deriving DecidableEq, Repr

def findStartCodes (data : Bytes) (i : Nat) : List StartCodeRun :=
  if _inside : i + 3 ≤ data.length then
    if ShortCodeAt data i then ⟨i, i + 3⟩ :: findStartCodes data (i + 3)
    else if LongCodeAt data i then ⟨i, i + 4⟩ :: findStartCodes data (i + 4)
    else findStartCodes data (i + 1)
  else []
termination_by data.length - i

def unitBetween (data : Bytes) (start stop : Nat) : List Bytes :=
  if start < stop then [slice data start stop] else []

def splitAnnexB (data : Bytes) : List Bytes :=
  let starts := findStartCodes data 0
  (starts.zip starts.tail).flatMap (fun window => unitBetween data window.1.stop window.2.start) ++
    match starts.getLast? with
    | none => []
    | some last => unitBetween data last.stop data.length

def annexBToAvcc (annexB : Bytes) : Bytes :=
  (splitAnnexB annexB).flatMap fun nal => if nal.isEmpty then [] else BigEndian.bytes 4 nal.length ++ nal

-- The units behind a start code, the later codes known.
def unitsBehind (data : Bytes) (start : Nat) : List StartCodeRun → List Bytes
  | [] => unitBetween data start data.length
  | next :: more => unitBetween data start next.start ++ unitsBehind data next.stop more

def unitsOf (data : Bytes) : List StartCodeRun → List Bytes
  | [] => []
  | first :: more => unitsBehind data first.stop more

theorem units_of_windows (data : Bytes) (starts : List StartCodeRun) :
    (starts.zip starts.tail).flatMap (fun window => unitBetween data window.1.stop window.2.start) ++
      (match starts.getLast? with
        | none => []
        | some last => unitBetween data last.stop data.length) = unitsOf data starts := by
  induction starts with
  | nil => rfl
  | cons first more ih =>
      cases more with
      | nil => rfl
      | cons second more =>
          rw [List.getLast?_cons_cons, List.tail_cons, List.zip_cons_cons, List.flatMap_cons, List.append_assoc]
          exact congrArg _ ih

theorem split_collecting (data : Bytes) (start i : Nat) (ordered : start ≤ i) (bound : i ≤ data.length) :
    splitFrom (some (slice data start i)) (data.drop i) = unitsBehind data start (findStartCodes data i) := by
  induction i using findStartCodes.induct data generalizing start with
  | case1 i inside short ih =>
      have later := ih (i + 3) (Nat.le_refl _) inside
      rw [slice_nil] at later
      rw [findStartCodes, dif_pos inside, if_pos short, split_drop_short _ data i short, emitted_slice data start i bound,
        later]
      rfl
  | case2 i inside notShort long ih =>
      have later := ih (i + 4) (Nat.le_refl _) long.1
      rw [slice_nil] at later
      rw [findStartCodes, dif_pos inside, if_neg notShort, if_pos long, split_drop_long _ data i long,
        emitted_slice data start i bound, later]
      rfl
  | case3 i inside notShort notLong ih =>
      have noCode : ¬ StartsCode (data.drop i) := fun code => ((starts_code_iff data i).mp code).elim notShort notLong
      have here : i < data.length := by omega
      rw [findStartCodes, dif_pos inside, if_neg notShort, if_neg notLong, split_drop_plain _ data i here noCode,
        Option.map_some, ← slice_snoc data start i ordered here]
      exact ih start (Nat.le_succ_of_le ordered) here
  | case4 i outside =>
      rw [findStartCodes, dif_neg outside, split_drop_tail _ data i (Nat.not_le.mp outside), Option.map_some,
        slice_end data start i ordered bound, emitted_slice data start data.length (Nat.le_refl _)]
      rfl

theorem split_waiting (data : Bytes) (i : Nat) :
    splitFrom none (data.drop i) = unitsOf data (findStartCodes data i) := by
  induction i using findStartCodes.induct data with
  | case1 i inside short _ =>
      have later := split_collecting data (i + 3) (i + 3) (Nat.le_refl _) inside
      rw [slice_nil] at later
      rw [findStartCodes, dif_pos inside, if_pos short, split_drop_short _ data i short, later]
      rfl
  | case2 i inside notShort long _ =>
      have later := split_collecting data (i + 4) (i + 4) (Nat.le_refl _) long.1
      rw [slice_nil] at later
      rw [findStartCodes, dif_pos inside, if_neg notShort, if_pos long, split_drop_long _ data i long, later]
      rfl
  | case3 i inside notShort notLong ih =>
      have noCode : ¬ StartsCode (data.drop i) := fun code => ((starts_code_iff data i).mp code).elim notShort notLong
      have here : i < data.length := by omega
      rw [findStartCodes, dif_pos inside, if_neg notShort, if_neg notLong, split_drop_plain _ data i here noCode]
      exact ih
  | case4 i outside =>
      rw [findStartCodes, dif_neg outside, split_drop_tail _ data i (Nat.not_le.mp outside)]
      rfl

theorem split_annex_b_eq (data : Bytes) : splitAnnexB data = Codec.splitAnnexB data := by
  have waiting := split_waiting data 0
  rw [List.drop_zero] at waiting
  rw [Codec.splitAnnexB, waiting, splitAnnexB]
  exact units_of_windows data _

theorem annex_b_to_avcc_eq (data : Bytes) : annexBToAvcc data = lengthPrefixed (Codec.splitAnnexB data) := by
  rw [annexBToAvcc, split_annex_b_eq, lengthPrefixed]
  refine List.flatMap_congr fun nal member => ?_
  have present : nal ≠ [] := fun nothing => split_nonempty none data (nothing ▸ member)
  rw [List.isEmpty_eq_false_iff.mpr present, if_neg (by decide)]

end Lvqr.Whip.Depack
