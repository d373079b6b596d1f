import Lvqr.Codec.Hevc
import Lvqr.Lib.Bits

set_option autoImplicit false

namespace Lvqr.Codec

open BitReader

def AAC_SAMPLE_FREQUENCIES : List Nat :=
  [96000, 88200, 64000, 48000, 44100, 32000, 24000, 22050, 16000, 12000, 11025, 8000, 7350]

structure AudioSpecificConfig where
  objectType : Nat
  sampleRate : Nat
  channelConfig : Nat
  sbrPresent : Bool
  psPresent : Bool
deriving DecidableEq, Repr

def readObjectType : BitRead Nat := do
  let base ← readBits 5
  if base = 31 then
    let ext ← readBits 6
    pure (32 + ext)
  else pure base

def MIN_PLAUSIBLE_HZ : Nat := 7350

def readSampleRate : BitRead Nat := do
  let sfi ← readBits 4
  if sfi = 15 then
    let freq ← readBits 24
    if freq < MIN_PLAUSIBLE_HZ then throw (.malformedAsc "explicit sample rate below 7350 Hz") else pure freq
  else
    match AAC_SAMPLE_FREQUENCIES[sfi]? with
    | some rate => pure rate
    | none => throw (.malformedAsc "sampling_frequency_index out of range")

-- What follows an explicit SBR or PS object type: the extension frequency and the
-- object type behind it.
def readExtension : BitRead Unit := do
  let extSfi ← readBits 4
  let _frequency ← (if extSfi = 15 then readBits 24 else pure 0)
  let _downstream ← readObjectType
  pure ()

def readAsc : BitRead AudioSpecificConfig := do
  let objectType ← readObjectType
  let sampleRate ← readSampleRate
  let channelConfig ← readBits 4
  if objectType = 5 ∨ objectType = 29 then
    readExtension
    pure ⟨objectType, sampleRate, channelConfig, true, objectType == 29⟩
  else pure ⟨objectType, sampleRate, channelConfig, false, false⟩

def parseAsc (bytes : Bytes) : Except CodecError AudioSpecificConfig :=
  if bytes.isEmpty then .error (.endOfStream 1 0) else (readAsc.run (BitReader.new bytes)).map Prod.fst

example : parseAsc [0x12, 0x10] = .ok ⟨2, 44100, 2, false, false⟩ := by decide

-- The three fields at the front of a config, and what is left of the second byte.
theorem front_bits (first second : UInt8) (rest : Bytes) :
    BitStream.bits (first :: second :: rest) = BitStream.fixed 5 (first.toNat / 8) ++
      (BitStream.fixed 4 (first.toNat * 2 + second.toNat / 128) ++
        (BitStream.fixed 4 (second.toNat / 8) ++ (BitStream.fixed 3 second.toNat ++ BitStream.bits rest))) := by
  have high : BitStream.byteBits first = BitStream.fixed 5 (first.toNat / 8) ++ BitStream.fixed 3 first.toNat :=
    BitStream.fixed_append 5 3 first.toNat
  have low : BitStream.byteBits second = BitStream.fixed 1 (second.toNat / 128) ++ BitStream.fixed 7 second.toNat :=
    BitStream.fixed_append 1 7 second.toNat
  have middle : BitStream.fixed 7 second.toNat = BitStream.fixed 4 (second.toNat / 8) ++ BitStream.fixed 3 second.toNat :=
    BitStream.fixed_append 4 3 second.toNat
  have joined : BitStream.fixed 4 (first.toNat * 2 + second.toNat / 128) =
      BitStream.fixed 3 first.toNat ++ BitStream.fixed 1 (second.toNat / 128) := by
    have top : second.toNat / 128 < 2 := Nat.div_lt_of_lt_mul second.toNat_lt
    have half : (first.toNat * 2 + second.toNat / 128) / 2 ^ 1 = first.toNat := by omega
    have last : BitStream.fixed 1 (first.toNat * 2 + second.toNat / 128) = BitStream.fixed 1 (second.toNat / 128) := by
      simp only [BitStream.fixed, Nat.testBit_zero, Nat.mul_add_mod_self_right]
    rw [BitStream.fixed_append 3 1, half, last]
  rw [BitStream.bits_cons, BitStream.bits_cons, high, low, middle, joined]
  simp only [List.append_assoc]

theorem read_object_type_ok (reader next : BitReader) (objectType : Nat)
    (ran : readObjectType.run reader = .ok (objectType, next)) :
    ∃ base middle, (readBits 5).run reader = .ok (base, middle) ∧
      ((base = 31 ∧ 32 ≤ objectType ∧ next.rest.length ≤ middle.rest.length) ∨
        (base ≠ 31 ∧ objectType = base ∧ next = middle)) := by
  obtain ⟨base, middle, isBase, later⟩ := read_bind_run _ _ _ _ _ ran
  refine ⟨base, middle, isBase, ?_⟩
  by_cases escaped : base = 31
  · rw [if_pos escaped] at later
    obtain ⟨ext, last, isExt, same⟩ := read_bind_run _ _ _ _ _ later
    obtain ⟨rfl, rfl⟩ := Prod.mk.inj (Except.ok.inj same)
    obtain ⟨-, -, left⟩ := read_bits_ok _ _ _ _ isExt
    exact .inl ⟨escaped, Nat.le_add_right _ _, by rw [left, List.length_drop]; omega⟩
  · rw [if_neg escaped] at later
    obtain ⟨rfl, rfl⟩ := Prod.mk.inj (Except.ok.inj later)
    exact .inr ⟨escaped, rfl, rfl⟩

theorem read_sample_rate_ok (reader next : BitReader) (rate : Nat) (ran : readSampleRate.run reader = .ok (rate, next)) :
    ∃ sfi middle, (readBits 4).run reader = .ok (sfi, middle) ∧
      ((sfi = 15 ∧ (readBits 24).run middle = .ok (rate, next)) ∨
        (sfi ≠ 15 ∧ AAC_SAMPLE_FREQUENCIES[sfi]? = some rate ∧ next = middle)) := by
  obtain ⟨sfi, middle, isIndex, later⟩ := read_bind_run _ _ _ _ _ ran
  refine ⟨sfi, middle, isIndex, ?_⟩
  by_cases escaped : sfi = 15
  · rw [if_pos escaped] at later
    obtain ⟨freq, last, isFreq, same⟩ := read_bind_run _ _ _ _ _ later
    split at same
    · cases same
    · obtain ⟨rfl, rfl⟩ := Prod.mk.inj (Except.ok.inj same)
      exact .inl ⟨escaped, isFreq⟩
  · rw [if_neg escaped] at later
    cases known : AAC_SAMPLE_FREQUENCIES[sfi]? with
    | none =>
        rw [known] at later
        cases later
    | some found =>
        rw [known] at later
        obtain ⟨rfl, rfl⟩ := Prod.mk.inj (Except.ok.inj later)
        exact .inr ⟨escaped, rfl, rfl⟩

theorem read_asc_ok (reader last : BitReader) (config : AudioSpecificConfig) (ran : readAsc.run reader = .ok (config, last)) :
    ∃ typed rated channelled, readObjectType.run reader = .ok (config.objectType, typed) ∧
      readSampleRate.run typed = .ok (config.sampleRate, rated) ∧
      (readBits 4).run rated = .ok (config.channelConfig, channelled) ∧
      config.sbrPresent = decide (config.objectType = 5 ∨ config.objectType = 29) ∧
      config.psPresent = (config.objectType == 29) := by
  obtain ⟨objectType, typed, isType, afterType⟩ := read_bind_run _ _ _ _ _ ran
  obtain ⟨sampleRate, rated, isRate, afterRate⟩ := read_bind_run _ _ _ _ _ afterType
  obtain ⟨channelConfig, channelled, isChannel, afterChannel⟩ := read_bind_run _ _ _ _ _ afterRate
  by_cases extended : objectType = 5 ∨ objectType = 29
  · rw [if_pos extended] at afterChannel
    obtain ⟨-, next, -, same⟩ := read_bind_run _ _ _ _ _ afterChannel
    obtain ⟨rfl, rfl⟩ := Prod.mk.inj (Except.ok.inj same)
    exact ⟨typed, rated, channelled, isType, isRate, isChannel, (decide_eq_true extended).symm, rfl⟩
  · rw [if_neg extended] at afterChannel
    obtain ⟨rfl, rfl⟩ := Prod.mk.inj (Except.ok.inj afterChannel)
    refine ⟨typed, rated, channelled, isType, isRate, isChannel, (decide_eq_false extended).symm, ?_⟩
    exact (beq_eq_false_iff_ne.mpr fun parametric => extended (.inr parametric)).symm

theorem parse_asc_run (bytes : Bytes) (config : AudioSpecificConfig) (parsed : parseAsc bytes = .ok config) :
    ∃ last, readAsc.run (BitReader.new bytes) = .ok (config, last) := by
  rw [parseAsc] at parsed
  split at parsed
  · cases parsed
  · cases ran : readAsc.run (BitReader.new bytes) with
    | error error =>
        rw [ran] at parsed
        cases parsed
    | ok result =>
        rw [ran] at parsed
        obtain rfl : result.1 = config := Except.ok.inj parsed
        exact ⟨result.2, rfl⟩

-- The fields at the front, as a reader without escapes takes them.
def objectTypeField (asc : Bytes) : Nat := (asc.getD 0 0).toNat / 8

def frequencyField (asc : Bytes) : Nat := (asc.getD 0 0).toNat % 8 * 2 + (asc.getD 1 0).toNat / 128

def channelField (asc : Bytes) : Nat := (asc.getD 1 0).toNat / 8 % 16

theorem parsed_length (bytes : Bytes) (config : AudioSpecificConfig) (parsed : parseAsc bytes = .ok config) :
    2 ≤ bytes.length := by
  obtain ⟨last, ran⟩ := parse_asc_run bytes config parsed
  obtain ⟨typed, rated, channelled, isType, isRate, isChannel, -, -⟩ := read_asc_ok _ last config ran
  obtain ⟨base, middle, isBase, afterType⟩ := read_object_type_ok _ typed _ isType
  obtain ⟨sfi, indexed, isIndex, afterRate⟩ := read_sample_rate_ok typed rated _ isRate
  obtain ⟨fiveBits, -, afterFive⟩ := read_bits_ok _ _ _ _ isBase
  obtain ⟨fourBits, -, afterFour⟩ := read_bits_ok _ _ _ _ isIndex
  obtain ⟨lastBits, -, -⟩ := read_bits_ok _ _ _ _ isChannel
  have whole : (BitReader.new bytes).rest.length = bytes.length * 8 := BitStream.bits_length bytes
  have typedLength : typed.rest.length ≤ middle.rest.length := by
    rcases afterType with ⟨-, -, shorter⟩ | ⟨-, -, rfl⟩
    · exact shorter
    · exact Nat.le_refl _
  have ratedLength : rated.rest.length ≤ indexed.rest.length := by
    rcases afterRate with ⟨-, isFreq⟩ | ⟨-, -, rfl⟩
    · obtain ⟨-, -, left⟩ := read_bits_ok _ _ _ _ isFreq
      rw [left, List.length_drop]
      exact Nat.sub_le _ _
    · exact Nat.le_refl _
  rw [afterFive, List.length_drop] at typedLength
  rw [afterFour, List.length_drop] at ratedLength
  omega

-- A parsed config says of its front fields what they hold, where no escape hides it.
theorem parsed_fields (bytes : Bytes) (config : AudioSpecificConfig) (parsed : parseAsc bytes = .ok config) :
    (objectTypeField bytes = 31 ∧ 32 ≤ config.objectType) ∨
      (objectTypeField bytes ≠ 31 ∧ config.objectType = objectTypeField bytes ∧
        ((frequencyField bytes = 15 ∧ config.sampleRate / 2 ^ 20 = channelField bytes) ∨
          (frequencyField bytes ≠ 15 ∧ AAC_SAMPLE_FREQUENCIES[frequencyField bytes]? = some config.sampleRate ∧
            config.channelConfig = channelField bytes))) := by
  obtain ⟨last, ran⟩ := parse_asc_run bytes config parsed
  obtain ⟨typed, rated, channelled, isType, isRate, isChannel, -, -⟩ := read_asc_ok _ last config ran
  obtain ⟨base, middle, isBase, afterType⟩ := read_object_type_ok _ typed _ isType
  obtain ⟨sfi, indexed, isIndex, afterRate⟩ := read_sample_rate_ok typed rated _ isRate
  obtain ⟨-, baseValue, afterFive⟩ := read_bits_ok _ _ _ _ isBase
  obtain ⟨-, indexValue, afterFour⟩ := read_bits_ok _ _ _ _ isIndex
  obtain ⟨-, channelValue, -⟩ := read_bits_ok _ _ _ _ isChannel
  match bytes, parsed_length bytes config parsed with
  | first :: second :: rest, _ =>
      have firstSmall := first.toNat_lt
      have secondSmall := second.toNat_lt
      have starts : (BitReader.new (first :: second :: rest)).rest = _ := front_bits first second rest
      have objectType : objectTypeField (first :: second :: rest) = first.toNat / 8 := rfl
      have frequency : frequencyField (first :: second :: rest) = first.toNat % 8 * 2 + second.toNat / 128 := rfl
      have channel : channelField (first :: second :: rest) = second.toNat / 8 % 16 := rfl
      rw [starts, List.take_left' (BitStream.fixed_length _ _), BitStream.value_fixed _ _ (by omega)] at baseValue
      rw [starts, List.drop_left' (BitStream.fixed_length _ _)] at afterFive
      rw [objectType, frequency, channel]
      rcases afterType with ⟨escaped, large, -⟩ | ⟨plain, isObjectType, rfl⟩
      · exact .inl ⟨baseValue ▸ escaped, large⟩
      · refine .inr ⟨baseValue ▸ plain, isObjectType.trans baseValue, ?_⟩
        rw [afterFive, List.take_left' (BitStream.fixed_length _ _), BitStream.value_fixed_mod] at indexValue
        rw [afterFive, List.drop_left' (BitStream.fixed_length _ _)] at afterFour
        have index : sfi = first.toNat % 8 * 2 + second.toNat / 128 := by omega
        rw [← index]
        rcases afterRate with ⟨explicit, isFreq⟩ | ⟨indexed, known, rfl⟩
        · obtain ⟨enough, freqValue, -⟩ := read_bits_ok _ _ _ _ isFreq
          refine .inl ⟨explicit, ?_⟩
          rw [afterFour] at enough freqValue
          generalize BitStream.fixed 3 second.toNat ++ BitStream.bits rest = tail at enough freqValue
          have size : (tail.take 20).length = 20 := by
            rw [List.length_append, BitStream.fixed_length] at enough
            exact List.length_take_of_le (by omega)
          have cut : (BitStream.fixed 4 (second.toNat / 8) ++ tail).take 24 =
              BitStream.fixed 4 (second.toNat / 8) ++ tail.take 20 := by
            rw [List.take_append, List.take_of_length_le (by rw [BitStream.fixed_length]; decide), BitStream.fixed_length]
          have low := BitStream.value_lt (tail.take 20)
          rw [cut, BitStream.value_append, BitStream.value_fixed_mod, size] at freqValue
          rw [size] at low
          rw [freqValue]
          omega
        · refine .inr ⟨indexed, known, ?_⟩
          rw [afterFour, List.take_left' (BitStream.fixed_length _ _), BitStream.value_fixed_mod] at channelValue
          exact channelValue

theorem reads_field (width number : Nat) (fits : width ≤ 32) :
    Reads rest (readBits width) (BitStream.fixed width number) (number % 2 ^ width) := by
  have read := reads_bits (BitStream.fixed width number) (by rwa [BitStream.fixed_length])
  rwa [BitStream.fixed_length, BitStream.value_fixed_mod] at read

theorem reads_object_type (objectType : Nat) (plain : objectType < 31) :
    Reads rest readObjectType (BitStream.fixed 5 objectType) objectType := by
  have read := reads_field 5 objectType (by decide)
  rw [Nat.mod_eq_of_lt (Nat.lt_trans plain (by decide))] at read
  rw [← List.append_nil (BitStream.fixed 5 objectType)]
  refine read.bind ?_
  rw [if_neg (Nat.ne_of_lt plain)]
  exact Reads.pure objectType

theorem reads_sample_rate (index rate : Nat) (known : AAC_SAMPLE_FREQUENCIES[index % 16]? = some rate) :
    Reads rest readSampleRate (BitStream.fixed 4 index) rate := by
  have read : Reads rest (readBits 4) (BitStream.fixed 4 index) (index % 16) := reads_field 4 index (by decide)
  have indexed : index % 16 ≠ 15 := by
    intro escaped
    rw [escaped] at known
    cases known
  rw [← List.append_nil (BitStream.fixed 4 index)]
  refine read.bind ?_
  rw [if_neg indexed, known]
  exact Reads.pure rate

-- A config without escapes and extension is its three front fields.
theorem parse_plain (bytes : Bytes) (rate : Nat) (long : 2 ≤ bytes.length) (plain : objectTypeField bytes < 31)
    (extended : ¬ (objectTypeField bytes = 5 ∨ objectTypeField bytes = 29))
    (known : AAC_SAMPLE_FREQUENCIES[frequencyField bytes]? = some rate) :
    parseAsc bytes = .ok ⟨objectTypeField bytes, rate, channelField bytes, false, false⟩ := by
  match bytes, long with
  | first :: second :: tail, _ =>
      have index : (first.toNat * 2 + second.toNat / 128) % 16 = frequencyField (first :: second :: tail) := by
        have secondSmall := second.toNat_lt
        have field : frequencyField (first :: second :: tail) = first.toNat % 8 * 2 + second.toNat / 128 := rfl
        omega
      rw [← index] at known
      have read : Reads rest readAsc (BitStream.fixed 5 (first.toNat / 8) ++
          (BitStream.fixed 4 (first.toNat * 2 + second.toNat / 128) ++ (BitStream.fixed 4 (second.toNat / 8) ++ [])))
          ⟨first.toNat / 8, rate, second.toNat / 8 % 2 ^ 4, false, false⟩ := by
        refine (reads_object_type (first.toNat / 8) plain).bind ((reads_sample_rate _ rate known).bind ?_)
        refine (reads_field 4 (second.toNat / 8) (by decide)).bind ?_
        have extendedToo : ¬ (first.toNat / 8 = 5 ∨ first.toNat / 8 = 29) := extended
        rw [if_neg extendedToo]
        exact Reads.pure _
      have front := front_bits first second tail
      obtain ⟨next, ran, -⟩ := read (BitReader.new (first :: second :: tail))
        (BitStream.fixed 3 second.toNat ++ BitStream.bits tail) (by
          rw [List.append_nil, List.append_assoc, List.append_assoc]
          exact front)
      rw [parseAsc, if_neg (by simp), ran]
      rfl

-- Three fields packed into two bytes.
theorem packed_fields (objectType frequency channel : UInt8) (typeFits : objectType.toNat < 32)
    (frequencyFits : frequency.toNat < 16) (channelFits : channel.toNat < 16) :
    let asc := [(objectType <<< 3) ||| (frequency >>> 1), ((frequency &&& 1) <<< 7) ||| (channel <<< 3)]
    objectTypeField asc = objectType.toNat ∧ frequencyField asc = frequency.toNat ∧ channelField asc = channel.toNat := by
  have first : ((objectType <<< 3) ||| (frequency >>> 1)).toNat = objectType.toNat * 8 + frequency.toNat / 2 := by
    have half : (frequency >>> 1).toNat = frequency.toNat / 2 := by
      rw [UInt8.toNat_shiftRight]
      exact Nat.shiftRight_eq_div_pow _ 1
    have high : (objectType <<< 3).toNat = objectType.toNat <<< 3 := by
      rw [UInt8.toNat_shiftLeft, Nat.shiftLeft_eq, Nat.shiftLeft_eq]
      exact Nat.mod_eq_of_lt (by show objectType.toNat * 8 < 256; omega)
    rw [UInt8.toNat_or, half, high, Bits.shift_or_eq_add _ _ 3 (by omega)]
    rfl
  have second : (((frequency &&& 1) <<< 7) ||| (channel <<< 3)).toNat = frequency.toNat % 2 * 128 + channel.toNat * 8 := by
    have low : (frequency &&& 1).toNat = frequency.toNat % 2 := by
      rw [UInt8.toNat_and]
      exact Bits.mask_eq_mod _ 1
    have high : ((frequency &&& 1) <<< 7).toNat = (frequency.toNat % 2) <<< 7 := by
      rw [UInt8.toNat_shiftLeft, low, Nat.shiftLeft_eq, Nat.shiftLeft_eq]
      exact Nat.mod_eq_of_lt (by show frequency.toNat % 2 * 128 < 256; omega)
    have middle : (channel <<< 3).toNat = channel.toNat * 8 := by
      rw [UInt8.toNat_shiftLeft, Nat.shiftLeft_eq]
      exact Nat.mod_eq_of_lt (by show channel.toNat * 8 < 256; omega)
    rw [UInt8.toNat_or, high, middle, Bits.shift_or_eq_add _ _ 7 (by omega)]
    rfl
  refine ⟨?_, ?_, ?_⟩
  · rw [objectTypeField, List.getD_cons_zero, first]
    omega
  · rw [frequencyField, List.getD_cons_zero, List.getD_cons_succ, List.getD_cons_zero, first, second]
    omega
  · rw [channelField, List.getD_cons_succ, List.getD_cons_zero, second]
    omega

end Lvqr.Codec
