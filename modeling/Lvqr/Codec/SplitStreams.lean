import Lvqr.Srt.AnnexB
import Lvqr.Whip.Depack

set_option autoImplicit false

-- Byte streams as Annex B lays them out, and when the two ingests split one into the
-- units it was written from.
namespace Lvqr.Codec

structure NalUnit where
  bytes : Bytes
  present : bytes ≠ []
  unbroken : Unbroken bytes

-- An encoder ends no unit in a zero byte.
structure EncodedUnit extends NalUnit where
  ends : bytes.getLast present ≠ 0

-- `zeroByte` makes a start code of four bytes. The zeros behind a unit belong to
-- neither unit.
structure StreamUnit where
  nal : EncodedUnit
  zeroByte : Bool
  trailing : Nat

namespace StreamUnit

def startZeros (unit : StreamUnit) : Nat := unit.zeroByte.toNat + 2

def bytes (unit : StreamUnit) : Bytes :=
  zeroBytes unit.startZeros ++ 1 :: (unit.nal.bytes ++ zeroBytes unit.trailing)

end StreamUnit

def byteStream (leading : Nat) (units : List StreamUnit) : Bytes :=
  zeroBytes leading ++ units.flatMap StreamUnit.bytes

def nalsOf (units : List StreamUnit) : List Bytes := units.map fun unit => unit.nal.bytes

-- The zeros behind a unit that the next start code does not take.
def keptZeros (trailing : Nat) : List StreamUnit → Nat
  | [] => trailing
  | next :: _ => trailing + next.zeroByte.toNat - 1

def splitUnits : List StreamUnit → List Bytes
  | [] => []
  | unit :: rest => (unit.nal.bytes ++ zeroBytes (keptZeros unit.trailing rest)) :: splitUnits rest

-- No zeros behind the last unit, and behind another no more than fill up a start code
-- of four bytes.
def Snug : List StreamUnit → Prop
  | [] => True
  | unit :: rest => keptZeros unit.trailing rest = 0 ∧ Snug rest

instance Snug.decidable : ∀ units, Decidable (Snug units)
  | [] => inferInstanceAs (Decidable True)
  | unit :: rest =>
      have := Snug.decidable rest
      inferInstanceAs (Decidable (keptZeros unit.trailing rest = 0 ∧ Snug rest))

theorem zero_bytes_add (first second : Nat) : zeroBytes first ++ zeroBytes second = zeroBytes (first + second) :=
  List.replicate_append_replicate

-- A unit that ends in no zero is read whole, whatever follows it.
theorem encoded_plain (unit : EncodedUnit) (rest suffix : Bytes) (isSuffix : suffix <:+ unit.bytes)
    (present : suffix ≠ []) : ¬ StartsCode (suffix ++ rest) := by
  have unbroken := unbroken_suffix unit.bytes suffix unit.unbroken isSuffix
  have last : suffix.getLast present ≠ 0 := by
    rw [isSuffix.getLast present]
    exact unit.ends
  cases suffix with
  | nil => exact absurd rfl present
  | cons first tail =>
      cases tail with
      | nil =>
          rintro (⟨more, starts⟩ | ⟨more, starts⟩)
          · exact last (List.cons.inj starts).1.symm
          · exact last (List.cons.inj starts).1.symm
      | cons second tail =>
          cases tail with
          | nil =>
              rintro (⟨more, starts⟩ | ⟨more, starts⟩)
              · exact last (List.cons.inj (List.cons.inj starts).2).1.symm
              · exact last (List.cons.inj (List.cons.inj starts).2).1.symm
          | cons third tail =>
              rintro (⟨more, starts⟩ | ⟨more, starts⟩)
              · obtain ⟨rfl, fromSecond⟩ := List.cons.inj starts
                obtain ⟨rfl, fromThird⟩ := List.cons.inj fromSecond
                obtain ⟨rfl, -⟩ := List.cons.inj fromThird
                exact unbroken.2 ⟨[], tail, rfl⟩
              · obtain ⟨rfl, fromSecond⟩ := List.cons.inj starts
                obtain ⟨rfl, fromThird⟩ := List.cons.inj fromSecond
                obtain ⟨rfl, -⟩ := List.cons.inj fromThird
                exact unbroken.1 ⟨[], tail, rfl⟩

theorem split_stream (current : Option Bytes) (pending : Nat) (units : List StreamUnit) :
    splitFrom current (zeroBytes pending ++ units.flatMap StreamUnit.bytes) =
      emitted (current.map (· ++ zeroBytes (keptZeros pending units))) ++ splitUnits units := by
  induction units generalizing current pending with
  | nil =>
      rw [List.flatMap_nil, List.append_nil, split_zeros_end, splitUnits, List.append_nil]
      rfl
  | cons unit units ih =>
      have code : zeroBytes pending ++ (unit :: units).flatMap StreamUnit.bytes =
          zeroBytes (pending + unit.zeroByte.toNat + 2) ++
            1 :: (unit.nal.bytes ++ (zeroBytes unit.trailing ++ units.flatMap StreamUnit.bytes)) := by
        rw [List.flatMap_cons, StreamUnit.bytes, List.append_assoc, ← List.append_assoc, zero_bytes_add,
          List.cons_append, List.append_assoc]
        rfl
      have whole : unit.nal.bytes ++ zeroBytes (keptZeros unit.trailing units) ≠ [] :=
        fun nothing => unit.nal.present (List.append_eq_nil_iff.mp nothing).1
      rw [code, split_zeros, split_past _ unit.nal.bytes _ (encoded_plain unit.nal _), Option.map_some, List.nil_append,
        ih, Option.map_some, emitted_some _ whole]
      rfl

theorem split_byte_stream (leading : Nat) (units : List StreamUnit) :
    splitAnnexB (byteStream leading units) = splitUnits units :=
  (split_stream none leading units).trans (List.nil_append _)

theorem split_units_iff (units : List StreamUnit) : splitUnits units = nalsOf units ↔ Snug units := by
  induction units with
  | nil => exact iff_of_true rfl trivial
  | cons unit units ih =>
      rw [splitUnits, nalsOf, List.map_cons, List.cons.injEq, List.append_right_eq_self, Snug]
      refine and_congr ?_ ih
      exact List.replicate_eq_nil_iff _

-- What both ingests are to make of a stream.
structure SplitsExactly (leading : Nat) (units : List StreamUnit) : Prop where
  srt : Srt.AnnexB.splitAnnexB (byteStream leading units) = nalsOf units
  whip : Whip.Depack.splitAnnexB (byteStream leading units) = nalsOf units
  srtAvcc : Srt.AnnexB.annexBToAvcc (byteStream leading units) =
    lengthPrefixed ((nalsOf units).filter fun nal => !isAvcParameterSet nal)
  whipAvcc : Whip.Depack.annexBToAvcc (byteStream leading units) = lengthPrefixed (nalsOf units)

theorem snug_of_exact (leading : Nat) (units : List StreamUnit) (exactly : SplitsExactly leading units) : Snug units := by
  rw [← split_units_iff, ← split_byte_stream leading units, ← Whip.Depack.split_annex_b_eq]
  exact exactly.whip

theorem splits_exactly_iff (leading : Nat) (units : List StreamUnit) : SplitsExactly leading units ↔ Snug units := by
  refine ⟨snug_of_exact leading units, fun snug => ?_⟩
  have same : splitAnnexB (byteStream leading units) = nalsOf units :=
    (split_byte_stream leading units).trans ((split_units_iff units).mpr snug)
  refine ⟨?_, ?_, ?_, ?_⟩
  · rw [Srt.AnnexB.split_annex_b_eq, same]
  · rw [Whip.Depack.split_annex_b_eq, same]
  · rw [Srt.AnnexB.annex_b_to_avcc_eq, same]
  · rw [Whip.Depack.annex_b_to_avcc_eq, same]

def paddedSlice : StreamUnit where
  nal := ⟨⟨[0x65, 0xCC], by decide, by decide⟩, by decide⟩
  zeroByte := true
  trailing := 1

-- One trailing zero byte comes out as the last byte of the unit.
theorem trailing_zero_kept : ¬ SplitsExactly 0 [paddedSlice] := fun exactly =>
  absurd (snug_of_exact 0 [paddedSlice] exactly) (by decide)

end Lvqr.Codec
