import Lvqr.Codec.Scte35
import Lvqr.Lib.Bits
import Lvqr.Lib.Crc

set_option autoImplicit false

-- What the CRC of a section detects. The byte-and-bit loop is the register of a
-- cyclic redundancy check that is fed the section's bits.
namespace Lvqr.Codec

open Section

def CRC_POLYNOMIAL : BitVec 32 := 0x04C11DB7#32

theorem crc_shift (crc : UInt32) : (crcShift crc).toBitVec = Crc.shift CRC_POLYNOMIAL crc.toBitVec := by
  have top : (0x80000000 : UInt32).toBitVec = BitVec.twoPow 32 31 := by decide
  have carried : crc &&& 0x80000000 ≠ 0 ↔ crc.toBitVec.msb = true := by
    rw [ne_eq, ← UInt32.toBitVec_inj, UInt32.toBitVec_and, top, BitVec.and_twoPow, BitVec.msb_eq_getLsbD_last]
    cases crc.toBitVec.getLsbD 31
    · simp
    · simp
  rw [crcShift, Crc.shift]
  by_cases set : crc.toBitVec.msb = true
  · rw [if_pos (carried.mpr set), if_pos set]
    rfl
  · rw [if_neg (carried.not.mpr set), if_neg set]
    rfl

theorem iterate_crc_shift (count : Nat) (crc : UInt32) :
    (crcShift^[count] crc).toBitVec = (Crc.shift CRC_POLYNOMIAL)^[count] crc.toBitVec := by
  induction count generalizing crc with
  | zero => rfl
  | succ count ih => rw [Function.iterate_succ_apply, ih, crc_shift, Function.iterate_succ_apply]

theorem crc_byte (crc : UInt32) (byte : UInt8) :
    (crcByte crc byte).toBitVec = Crc.run CRC_POLYNOMIAL crc.toBitVec (BitStream.byteBits byte) := by
  have aligned : (byte.toUInt32 <<< 24).toBitVec = (Crc.word (BitStream.byteBits byte) : BitVec 32) := by
    revert byte
    apply Bits.forall_byte
    decide +kernel
  rw [crcByte, iterate_crc_shift, Crc.run_word CRC_POLYNOMIAL _ (by simp), UInt32.toBitVec_xor, aligned,
    BitStream.byte_bits_length]

theorem crc_fold (data : Bytes) (crc : UInt32) :
    (data.foldl crcByte crc).toBitVec = Crc.run CRC_POLYNOMIAL crc.toBitVec (BitStream.bits data) := by
  induction data generalizing crc with
  | nil => rfl
  | cons byte data ih => rw [List.foldl_cons, ih, crc_byte, BitStream.bits_cons, Crc.run_append]

def residue (bytes : Bytes) : BitVec 32 := Crc.run CRC_POLYNOMIAL (BitVec.allOnes 32) (BitStream.bits bytes)

theorem residue_append (data crc : Bytes) (four : crc.length = 4) :
    residue (data ++ crc) = 0#32 ↔ (crc32Mpeg2 data).toNat = BigEndian.value crc := by
  have bits : (BitStream.bits crc).length = 32 := by rw [BitStream.bits_length, four]
  have appended : BitStream.bits (data ++ crc) = BitStream.bits data ++ BitStream.bits crc := List.flatMap_append
  have word : (Crc.word (BitStream.bits crc) : BitVec 32).toNat = BitStream.value (BitStream.bits crc) :=
    Crc.word_value _ bits
  have register : (crc32Mpeg2 data).toBitVec = Crc.run CRC_POLYNOMIAL (BitVec.allOnes 32) (BitStream.bits data) :=
    crc_fold data 0xFFFFFFFF
  rw [residue, appended, Crc.run_append, ← register, Crc.run_eq_zero_iff _ (by decide) _ _ (Nat.le_of_eq bits),
    ← BitStream.value_bits, ← word]
  exact ⟨fun same => congrArg BitVec.toNat same, fun same => BitVec.eq_of_toNat_eq same⟩

theorem crc_right_iff (bytes : Bytes) (framed : Framed bytes) :
    computedCrc bytes = wireCrc bytes ↔ residue (bytes.take (totalLen bytes)) = 0#32 := by
  have whole := framed.whole
  have room := framed.room
  have ends : totalLen bytes = crcOffset bytes + 4 := by
    rw [crcOffset, totalLen]
    omega
  have four : ((bytes.drop (crcOffset bytes)).take 4).length = 4 := by
    rw [List.length_take, List.length_drop]
    omega
  rw [ends, List.take_add, residue_append _ _ four, computedCrc, wireCrc]

def corrupt (bytes error : Bytes) : Bytes := List.zipWith (· ^^^ ·) bytes error

-- A nonzero error pattern of a section that lies within 32 consecutive bits and
-- leaves the table id and the section length alone.
structure Burst (bytes error : Bytes) : Prop where
  length : error.length = bytes.length
  nonzero : ∃ byte ∈ error, byte ≠ 0
  window : ∃ start, Crc.InWindow 32 start (BitStream.bits error)
  table : byteOf error 0 = 0
  lengthHigh : byteOf error 1 &&& 0x0F = 0
  lengthLow : byteOf error 2 = 0

theorem corrupt_length (bytes error : Bytes) (same : error.length = bytes.length) :
    (corrupt bytes error).length = bytes.length := by
  rw [corrupt, List.length_zipWith, same, Nat.min_self]

theorem byte_of_corrupt (bytes error : Bytes) (same : error.length = bytes.length) (index : Nat) :
    byteOf (corrupt bytes error) index = byteOf bytes index ^^^ byteOf error index := by
  simp only [byteOf, corrupt, List.getD_eq_getElem?_getD, List.getElem?_zipWith]
  by_cases inside : index < bytes.length
  · simp [inside, same]
  · simp [List.getElem?_eq_none (Nat.le_of_not_lt inside), List.getElem?_eq_none (same ▸ Nat.le_of_not_lt inside)]

theorem bits_corrupt (bytes error : Bytes) (same : error.length = bytes.length) :
    BitStream.bits (corrupt bytes error) = List.zipWith (· ^^ ·) (BitStream.bits bytes) (BitStream.bits error) := by
  induction bytes generalizing error with
  | nil => rfl
  | cons byte bytes ih =>
      cases error with
      | nil => cases same
      | cons flips error =>
          have byteWise : BitStream.byteBits (byte ^^^ flips) =
              List.zipWith (· ^^ ·) (BitStream.byteBits byte) (BitStream.byteBits flips) := by
            simp only [BitStream.byteBits, UInt8.toNat_xor, List.map_cons, List.map_nil, Nat.testBit_xor]
            rfl
          have further := ih error (Nat.succ.inj same)
          rw [corrupt] at further ⊢
          rw [List.zipWith_cons_cons, BitStream.bits_cons, BitStream.bits_cons, BitStream.bits_cons, byteWise, further,
            List.zipWith_append (show (BitStream.byteBits byte).length = (BitStream.byteBits flips).length from rfl)]

theorem set_bit_of_nonzero (error : Bytes) (nonzero : ∃ byte ∈ error, byte ≠ 0) : true ∈ BitStream.bits error := by
  obtain ⟨byte, known, set⟩ := nonzero
  by_contra unset
  have here : true ∉ BitStream.byteBits byte := fun bit => unset (List.mem_flatMap.mpr ⟨byte, known, bit⟩)
  have value := BitStream.value_byte_bits byte
  rw [Crc.eq_zeros _ here] at value
  exact set (UInt8.toNat_inj.mp value.symm)

-- The error alone decides what the register holds after a corrupted section.
theorem residue_corrupt (bytes error : Bytes) (burst : Burst bytes error) (right : residue bytes = 0#32) :
    residue (corrupt bytes error) ≠ 0#32 := by
  obtain ⟨start, window⟩ := burst.window
  have same : (BitStream.bits bytes).length = (BitStream.bits error).length := by
    rw [BitStream.bits_length, BitStream.bits_length, burst.length]
  have added := Crc.run_xor CRC_POLYNOMIAL _ _ same (BitVec.allOnes 32) 0#32
  rw [BitVec.xor_zero, ← bits_corrupt bytes error burst.length] at added
  rw [residue] at right ⊢
  rw [added, right, BitVec.zero_xor]
  exact Crc.burst_detected CRC_POLYNOMIAL (by decide) _ start window (set_bit_of_nonzero error burst.nonzero)

theorem corrupted_section_length (bytes error rest : Bytes) (burst : Burst bytes error) (long : 3 ≤ bytes.length) :
    sectionLength (corrupt bytes error ++ rest) = sectionLength bytes := by
  have length := corrupt_length bytes error burst.length
  have nibble : (byteOf bytes 1 ^^^ byteOf error 1) &&& 0x0F = byteOf bytes 1 &&& 0x0F := by
    have split : (byteOf bytes 1 ^^^ byteOf error 1) &&& 0x0F = (byteOf bytes 1 &&& 0x0F) ^^^ (byteOf error 1 &&& 0x0F) :=
      UInt8.toNat_inj.mp Nat.and_xor_distrib_right
    rw [split, burst.lengthHigh, UInt8.xor_zero]
  rw [sectionLength, byte_of_append_left _ _ 1 (by omega), byte_of_append_left _ _ 2 (by omega),
    byte_of_corrupt _ _ burst.length, byte_of_corrupt _ _ burst.length, nibble, burst.lengthLow, UInt8.xor_zero,
    sectionLength]

theorem corrupted_framed (bytes error rest : Bytes) (burst : Burst bytes error) (framed : Framed (bytes ++ rest))
    (sized : bytes.length = totalLen (corrupt bytes error ++ rest)) : Framed (corrupt bytes error ++ rest) := by
  have length := corrupt_length bytes error burst.length
  have long := framed.long
  have room := framed.room
  have table := framed.table
  rw [List.length_append] at long
  have own : sectionLength (bytes ++ rest) = sectionLength bytes := by
    have three : 3 ≤ bytes.length := by rw [sized, totalLen]; omega
    rw [sectionLength, byte_of_append_left _ _ 1 (by omega), byte_of_append_left _ _ 2 (by omega), sectionLength]
  have three : 3 ≤ bytes.length := by rw [sized, totalLen]; omega
  have kept := corrupted_section_length bytes error rest burst three
  rw [byte_of_append_left _ _ 0 (by omega)] at table
  constructor
  · rw [List.length_append, length]
    exact long
  · rw [byte_of_append_left _ _ 0 (by omega), byte_of_corrupt _ _ burst.length, burst.table, UInt8.xor_zero, table]
  · rw [← sized, List.length_append, length]
    omega
  · rw [kept, ← own]
    exact room

theorem burst_breaks_crc (bytes error : Bytes) (parsed : SpliceInfo) (accepted : parseSpliceInfoSection bytes = .ok parsed)
    (burst : Burst parsed.raw error) :
    ∃ computed wire, parseSpliceInfoSection (corrupt parsed.raw error ++ bytes.drop parsed.raw.length) =
      .error (.scte35BadCrc computed wire) := by
  obtain ⟨framed, right, -, fields, -, rfl⟩ := (parse_ok_iff bytes parsed).mp accepted
  have room := framed.room
  have raw : (info bytes fields).raw = bytes.take (totalLen bytes) := rfl
  have size : (bytes.take (totalLen bytes)).length = totalLen bytes := List.length_take_of_le framed.whole
  rw [raw] at burst ⊢
  rw [size]
  rw [crc_right_iff bytes framed] at right
  have three : 3 ≤ totalLen bytes := Nat.le_add_right 3 _
  have own : sectionLength (bytes.take (totalLen bytes)) = sectionLength bytes := by
    rw [sectionLength, byte_of_take _ _ 1 (by omega), byte_of_take _ _ 2 (by omega), sectionLength]
  have kept := corrupted_section_length _ error (bytes.drop (totalLen bytes)) burst (by omega)
  have total : totalLen (corrupt (bytes.take (totalLen bytes)) error ++ bytes.drop (totalLen bytes)) = totalLen bytes := by
    rw [totalLen, kept, own, totalLen]
  have whole : Framed (bytes.take (totalLen bytes) ++ bytes.drop (totalLen bytes)) := by
    rw [List.take_append_drop]
    exact framed
  have corrupted := corrupted_framed _ error _ burst whole (size.trans total.symm)
  have wrong : computedCrc (corrupt (bytes.take (totalLen bytes)) error ++ bytes.drop (totalLen bytes)) ≠
      wireCrc (corrupt (bytes.take (totalLen bytes)) error ++ bytes.drop (totalLen bytes)) := by
    have length := corrupt_length _ error burst.length
    rw [ne_eq, crc_right_iff _ corrupted, total, List.take_left' (length.trans size)]
    exact residue_corrupt _ error burst right
  exact ⟨_, _, by rw [parse_framed _ corrupted, if_pos wrong]⟩

def nullSection : Bytes :=
  [0xFC, 0x30, 0x11, 0, 0, 0, 0, 0, 0, 0, 0xFF, 0xF0, 0, 0, 0, 0, 0x7A, 0x4F, 0xBF, 0xFF]

def nullInfo : SpliceInfo := ⟨0, 0, none, none, none, false, false, nullSection⟩

def firstAndLastOfWindow : Bytes := [0, 0, 0, 0, 0, 0x40, 0, 0, 0, 0x80, 0, 0, 0, 0, 0, 0, 0, 0, 0, 0]

theorem burst_breaks_crc_null :
    ∃ computed wire, parseSpliceInfoSection (corrupt nullInfo.raw firstAndLastOfWindow ++
      nullSection.drop nullInfo.raw.length) = .error (.scte35BadCrc computed wire) :=
  burst_breaks_crc nullSection firstAndLastOfWindow nullInfo (by decide +kernel)
    ⟨by decide, by decide, ⟨41, by decide +kernel⟩, by decide, by decide, by decide⟩

end Lvqr.Codec
