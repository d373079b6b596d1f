import Lvqr.Codec.Aac
import Lvqr.Codec.Hevc
import Lvqr.Lib.Bits

set_option autoImplicit false

-- The init segment writers. A segment stands for the parameters it is built from;
-- the boxes themselves are written by the mp4-atom crate.
namespace Lvqr.Cmaf

open Codec (CodecError HevcSps AudioSpecificConfig AAC_SAMPLE_FREQUENCIES parseAsc)

structure VideoInitParams where
  sps : Bytes
  pps : Bytes
  width : Nat
  height : Nat
  timescale : Nat
deriving DecidableEq, Repr

structure HevcInitParams where
  vps : Bytes
  sps : Bytes
  pps : Bytes
  spsInfo : HevcSps
  timescale : Nat
deriving DecidableEq, Repr

structure AudioInitParams where
  asc : Bytes
  timescale : Nat
deriving DecidableEq, Repr

structure OpusInitParams where
  channelCount : Nat
  preSkip : Nat
  inputSampleRate : Nat
  timescale : Nat
deriving DecidableEq, Repr

inductive InitSegment where
  | avc (params : VideoInitParams)
  | hevc (params : HevcInitParams)
  | aac (params : AudioInitParams) (asc : AudioSpecificConfig)
  | opus (params : OpusInitParams)
deriving DecidableEq, Repr

inductive InitSegmentError where
  | encode
  | invalidAsc (error : CodecError)
  | unsupportedAacSampleRate (rate : Nat)
  | unsupportedChannelCount
deriving DecidableEq, Repr

-- Whether mp4-atom accepts what a segment is built from.
abbrev Mp4Atom := InitSegment → Bool

variable (mp4 : Mp4Atom)

def encodeSegment (segment : InitSegment) : Except InitSegmentError InitSegment :=
  if mp4 segment then .ok segment else .error .encode

def writeAvcInitSegment (params : VideoInitParams) : Except InitSegmentError InitSegment :=
  encodeSegment mp4 (.avc params)

def writeHevcInitSegment (params : HevcInitParams) : Except InitSegmentError InitSegment :=
  encodeSegment mp4 (.hevc params)

def writeAacInitSegment (params : AudioInitParams) : Except InitSegmentError InitSegment :=
  match parseAsc params.asc with
  | .error error => .error (.invalidAsc error)
  | .ok asc =>
      if asc.sampleRate ∉ AAC_SAMPLE_FREQUENCIES then .error (.unsupportedAacSampleRate asc.sampleRate)
      else if 31 < asc.objectType then
        .error (.invalidAsc (.malformedAsc
          "AAC object type >= 32 (escape-encoded) cannot round-trip through mp4-atom esds"))
      else if 65535 < asc.sampleRate then .error (.unsupportedAacSampleRate asc.sampleRate)
      else encodeSegment mp4 (.aac params asc)

def writeOpusInitSegment (params : OpusInitParams) : Except InitSegmentError InitSegment :=
  if params.channelCount = 0 ∨ 2 < params.channelCount then .error .unsupportedChannelCount
  else if 65535 < params.timescale then .error (.unsupportedAacSampleRate params.timescale)
  else encodeSegment mp4 (.opus params)

end Lvqr.Cmaf

-- The AAC config as WHEP reads it off the sequence header.
namespace Lvqr.Whep

def RATES : List Nat := [96000, 88200, 64000, 48000, 44100, 32000, 24000, 22050, 16000, 12000, 11025, 8000, 7350]

def aacFreqIndexToHz (idx : UInt8) : Nat := RATES[idx.toNat]?.getD 44100

def parseAacAsc : Bytes → Option (Nat × Nat × Nat)
  | b0 :: b1 :: _ =>
      let objectType := b0 >>> 3
      let freqIdx := ((b0 &&& 0x07) <<< 1) ||| (b1 >>> 7)
      let channels := (b1 >>> 3) &&& 0x0F
      some (objectType.toNat, aacFreqIndexToHz freqIdx, channels.toNat)
  | _ => none

end Lvqr.Whep

-- The AAC config in the sample entry of an init segment, and read back from there.
namespace Lvqr.Cmaf

open Codec

structure DecoderSpecific where
  profile : UInt8
  freqIndex : UInt8
  chanConf : UInt8
deriving DecidableEq, Repr

-- The fields of the sample entry that are not constants.
structure Mp4a where
  channelCount : Nat
  sampleRate : Nat
  decSpecific : DecoderSpecific
deriving DecidableEq, Repr

inductive SampleEntry where
  | mp4a (entry : Mp4a)
  | other
deriving DecidableEq, Repr

def SampleEntry.aac : SampleEntry → Option Mp4a
  | mp4a entry => some entry
  | other => none

def buildMp4a (asc : AudioSpecificConfig) : Except InitSegmentError Mp4a :=
  match AAC_SAMPLE_FREQUENCIES.idxOf? asc.sampleRate with
  | none => .error (.unsupportedAacSampleRate asc.sampleRate)
  | some freqIndex =>
      if 31 < asc.objectType then
        .error (.invalidAsc (.malformedAsc
          "AAC object type >= 32 (escape-encoded) cannot round-trip through mp4-atom esds"))
      else .ok ⟨asc.channelConfig, asc.sampleRate % 2 ^ 16,
        ⟨.ofNat asc.objectType, .ofNat freqIndex, .ofNat asc.channelConfig⟩⟩

structure AacConfig where
  asc : Bytes
  objectType : UInt8
  sampleRate : Nat
  channels : UInt8
deriving DecidableEq, Repr

def aacSampleRateFromFreqIndex (freqIndex : UInt8) : Nat :=
  match freqIndex with
  | 0 => 96000
  | 1 => 88200
  | 2 => 64000
  | 3 => 48000
  | 4 => 44100
  | 5 => 32000
  | 6 => 24000
  | 7 => 22050
  | 8 => 16000
  | 9 => 12000
  | 10 => 11025
  | 11 => 8000
  | 12 => 7350
  | _ => 0

def buildShortAsc (profile freqIndex chanConf : UInt8) : Bytes :=
  [(profile <<< 3) ||| (freqIndex >>> 1), ((freqIndex &&& 1) <<< 7) ||| (chanConf <<< 3)]

-- What mp4-atom decodes of a segment: the sample entries of each track.
abbrev Mp4Decoder := InitSegment → Option (List (List SampleEntry))

def extractAacConfig (decode : Mp4Decoder) (init : InitSegment) : Option AacConfig := do
  let traks ← decode init
  let entry ← traks.flatten.findSome? SampleEntry.aac
  let specific := entry.decSpecific
  let sampleRate := aacSampleRateFromFreqIndex specific.freqIndex
  if sampleRate = 0 then none
  else some ⟨buildShortAsc specific.profile specific.freqIndex specific.chanConf, specific.profile, sampleRate,
    specific.chanConf⟩

-- The sample entry of a segment comes back with the decoder fields it was built from.
def DecodesSpecific (mp4 : Mp4Atom) (decode : Mp4Decoder) : Prop :=
  ∀ params asc mp4a, mp4 (.aac params asc) = true → buildMp4a asc = .ok mp4a →
    ∃ entry : Mp4a, decode (.aac params asc) = some [[.mp4a entry]] ∧ entry.decSpecific = mp4a.decSpecific

-- What the writer has read and checked of a config it accepts.
structure Accepts (mp4 : Mp4Atom) (params : AudioInitParams) (segment : InitSegment) (asc : AudioSpecificConfig)
    (freqIndex : Nat) : Prop where
  parsed : parseAsc params.asc = .ok asc
  plain : asc.objectType ≤ 31
  indexed : AAC_SAMPLE_FREQUENCIES.idxOf? asc.sampleRate = some freqIndex
  written : segment = .aac params asc
  encoded : mp4 (.aac params asc) = true

theorem write_aac_accepts (mp4 : Mp4Atom) (params : AudioInitParams) (segment : InitSegment)
    (written : writeAacInitSegment mp4 params = .ok segment) :
    ∃ asc freqIndex, Accepts mp4 params segment asc freqIndex := by
  rw [writeAacInitSegment] at written
  cases parsed : parseAsc params.asc with
  | error error =>
      rw [parsed] at written
      cases written
  | ok asc =>
      rw [parsed] at written
      dsimp only at written
      split at written
      · cases written
      · rename_i known
        split at written
        · cases written
        · rename_i plain
          split at written
          · cases written
          · rw [encodeSegment] at written
            split at written
            · rename_i encoded
              have isRate := List.isSome_idxOf?.mpr (Decidable.of_not_not known)
              obtain ⟨freqIndex, indexed⟩ := Option.isSome_iff_exists.mp isRate
              exact ⟨asc, freqIndex, parsed, Nat.not_lt.mp plain, indexed, (Except.ok.inj written).symm, encoded⟩
            · cases written

theorem build_mp4a_ok (asc : AudioSpecificConfig) (freqIndex : Nat) (plain : asc.objectType ≤ 31)
    (indexed : AAC_SAMPLE_FREQUENCIES.idxOf? asc.sampleRate = some freqIndex) :
    buildMp4a asc = .ok ⟨asc.channelConfig, asc.sampleRate % 2 ^ 16,
      ⟨.ofNat asc.objectType, .ofNat freqIndex, .ofNat asc.channelConfig⟩⟩ := by
  rw [buildMp4a, indexed]
  exact if_neg (Nat.not_lt.mpr plain)

theorem indexed_rate (rate freqIndex : Nat) (indexed : AAC_SAMPLE_FREQUENCIES.idxOf? rate = some freqIndex) :
    freqIndex < 13 ∧ AAC_SAMPLE_FREQUENCIES[freqIndex]? = some rate := by
  obtain ⟨inside, same, -⟩ := List.idxOf?_eq_some_iff.mp indexed
  exact ⟨inside, by rw [List.getElem?_eq_getElem inside, same]⟩

-- Both tables give each of the indexes the same rate.
theorem tables_agree : ∀ index < 13, some (aacSampleRateFromFreqIndex (.ofNat index)) = AAC_SAMPLE_FREQUENCIES[index]? ∧
    aacSampleRateFromFreqIndex (.ofNat index) ≠ 0 := by decide

theorem parse_aac_asc_eq (bytes : Bytes) (long : 2 ≤ bytes.length) :
    Whep.parseAacAsc bytes =
      some (objectTypeField bytes, AAC_SAMPLE_FREQUENCIES[frequencyField bytes]?.getD 44100, channelField bytes) := by
  match bytes, long with
  | first :: second :: rest, _ =>
      have secondSmall := second.toNat_lt
      have objectType : (first >>> 3).toNat = first.toNat / 8 := by
        rw [UInt8.toNat_shiftRight]
        exact Nat.shiftRight_eq_div_pow _ 3
      have frequency : (((first &&& 0x07) <<< 1) ||| (second >>> 7)).toNat = first.toNat % 8 * 2 + second.toNat / 128 := by
        have low : (first &&& 0x07).toNat = first.toNat % 8 := by
          rw [UInt8.toNat_and]
          exact Bits.mask_eq_mod _ 3
        have high : ((first &&& 0x07) <<< 1).toNat = (first.toNat % 8) <<< 1 := by
          rw [UInt8.toNat_shiftLeft, low, Nat.shiftLeft_eq, Nat.shiftLeft_eq]
          exact Nat.mod_eq_of_lt (by show first.toNat % 8 * 2 < 256; omega)
        have top : (second >>> 7).toNat = second.toNat / 128 := by
          rw [UInt8.toNat_shiftRight]
          exact Nat.shiftRight_eq_div_pow _ 7
        rw [UInt8.toNat_or, high, top, Bits.shift_or_eq_add _ _ 1 (by omega), Nat.pow_one]
      have channels : ((second >>> 3) &&& 0x0F).toNat = second.toNat / 8 % 16 := by
        rw [UInt8.toNat_and, UInt8.toNat_shiftRight]
        exact (Bits.mask_eq_mod _ 4).trans (congrArg (· % 16) (Nat.shiftRight_eq_div_pow _ 3))
      rw [Whep.parseAacAsc, objectType, channels, Whep.aacFreqIndexToHz, frequency]
      rfl

-- No escape is used, but for one whose values the fallbacks happen to be.
def Unescaped (bytes : Bytes) (config : AudioSpecificConfig) : Prop :=
  objectTypeField bytes ≠ 31 ∧
    (frequencyField bytes ≠ 15 ∨ (config.sampleRate = 44100 ∧ config.channelConfig = 0))

instance (bytes : Bytes) (config : AudioSpecificConfig) : Decidable (Unescaped bytes config) :=
  inferInstanceAs (Decidable (_ ∧ _))

theorem whep_agrees_iff (bytes : Bytes) (config : AudioSpecificConfig) (parsed : parseAsc bytes = .ok config) :
    Whep.parseAacAsc bytes = some (config.objectType, config.sampleRate, config.channelConfig) ↔ Unescaped bytes config := by
  rw [parse_aac_asc_eq bytes (parsed_length bytes config parsed), Option.some.injEq, Prod.mk.injEq, Prod.mk.injEq, Unescaped]
  rcases parsed_fields bytes config parsed with ⟨escaped, large⟩ | ⟨plain, objectType, rest⟩
  · refine iff_of_false ?_ fun unescaped => unescaped.1 escaped
    rintro ⟨same, -⟩
    omega
  · rw [objectType, and_iff_right rfl, and_iff_right plain]
    rcases rest with ⟨explicit, top⟩ | ⟨indexed, known, channel⟩
    · rw [explicit]
      constructor
      · rintro ⟨rate, channel⟩
        have isRate : config.sampleRate = 44100 := rate.symm
        rw [isRate, channel] at top
        exact .inr ⟨isRate, top.symm⟩
      · rintro (differ | ⟨rate, channel⟩)
        · exact absurd rfl differ
        · rw [rate] at top
          rw [rate, channel, ← top]
          exact ⟨rfl, rfl⟩
    · rw [known, channel]
      exact iff_of_true ⟨rfl, rfl⟩ (.inl indexed)

theorem parsed_channel_lt (bytes : Bytes) (config : AudioSpecificConfig) (parsed : parseAsc bytes = .ok config) :
    config.channelConfig < 16 := by
  obtain ⟨last, ran⟩ := parse_asc_run bytes config parsed
  obtain ⟨typed, rated, channelled, -, -, isChannel, -, -⟩ := read_asc_ok _ last config ran
  obtain ⟨enough, value, -⟩ := BitReader.read_bits_ok _ _ _ _ isChannel
  have small := BitStream.value_lt (rated.rest.take 4)
  rw [List.length_take_of_le enough] at small
  rwa [value]

theorem parsed_flags (bytes : Bytes) (config : AudioSpecificConfig) (parsed : parseAsc bytes = .ok config) :
    config.sbrPresent = decide (config.objectType = 5 ∨ config.objectType = 29) ∧
      config.psPresent = (config.objectType == 29) := by
  obtain ⟨last, ran⟩ := parse_asc_run bytes config parsed
  obtain ⟨typed, rated, channelled, -, -, -, flags⟩ := read_asc_ok _ last config ran
  exact flags

theorem parsed_object_type (bytes : Bytes) (config : AudioSpecificConfig) (parsed : parseAsc bytes = .ok config)
    (plain : config.objectType ≤ 31) : config.objectType < 31 := by
  have small : objectTypeField bytes < 32 := Nat.div_lt_of_lt_mul (bytes.getD 0 0).toNat_lt
  rcases parsed_fields bytes config parsed with ⟨-, large⟩ | ⟨differ, objectType, -⟩
  · omega
  · omega

-- The short form of a config without extension is read as that config.
theorem short_asc_parses (bytes : Bytes) (config : AudioSpecificConfig) (freqIndex : Nat)
    (parsed : parseAsc bytes = .ok config) (plain : config.objectType ≤ 31)
    (extended : ¬ (config.objectType = 5 ∨ config.objectType = 29))
    (indexed : AAC_SAMPLE_FREQUENCIES.idxOf? config.sampleRate = some freqIndex) :
    parseAsc (buildShortAsc (.ofNat config.objectType) (.ofNat freqIndex) (.ofNat config.channelConfig)) = .ok config := by
  have typeSmall := parsed_object_type bytes config parsed plain
  have channelSmall := parsed_channel_lt bytes config parsed
  obtain ⟨indexSmall, known⟩ := indexed_rate _ _ indexed
  obtain ⟨sbr, ps⟩ := parsed_flags bytes config parsed
  have typeValue := Bits.byte_value config.objectType (by omega)
  have indexValue := Bits.byte_value freqIndex (by omega)
  have channelValue := Bits.byte_value config.channelConfig (by omega)
  obtain ⟨objectType, frequency, channel⟩ := packed_fields (.ofNat config.objectType) (.ofNat freqIndex)
    (.ofNat config.channelConfig) (by omega) (by omega) (by omega)
  rw [typeValue] at objectType
  rw [indexValue] at frequency
  rw [channelValue] at channel
  rw [buildShortAsc, parse_plain _ config.sampleRate (by exact Nat.le_refl 2) (by rw [objectType]; exact typeSmall)
    (by rwa [objectType]) (by rwa [frequency]), objectType, channel]
  rw [decide_eq_false extended] at sbr
  rw [beq_eq_false_iff_ne.mpr fun parametric => extended (.inr parametric)] at ps
  cases config
  rw [Except.ok.injEq, AudioSpecificConfig.mk.injEq]
  exact ⟨rfl, rfl, rfl, sbr.symm, ps.symm⟩

theorem aac_config_read_alike (mp4 : Mp4Atom) (decode : Mp4Decoder) (decodes : DecodesSpecific mp4 decode) (bytes : Bytes)
    (config : AudioSpecificConfig) (parsed : parseAsc bytes = .ok config) :
    (Whep.parseAacAsc bytes = some (config.objectType, config.sampleRate, config.channelConfig) ↔ Unescaped bytes config) ∧
      ∀ timescale segment, writeAacInitSegment mp4 ⟨bytes, timescale⟩ = .ok segment →
        ¬ (config.objectType = 5 ∨ config.objectType = 29) →
        ∃ found, extractAacConfig decode segment = some found ∧ parseAsc found.asc = .ok config := by
  refine ⟨whep_agrees_iff bytes config parsed, fun timescale segment written extended => ?_⟩
  obtain ⟨asc, freqIndex, accepts⟩ := write_aac_accepts mp4 _ segment written
  obtain rfl : asc = config := Except.ok.inj (accepts.parsed.symm.trans parsed)
  have built := build_mp4a_ok asc freqIndex accepts.plain accepts.indexed
  obtain ⟨entry, decoded, specific⟩ := decodes _ asc _ accepts.encoded built
  obtain ⟨indexSmall, -⟩ := indexed_rate _ _ accepts.indexed
  have found : extractAacConfig decode segment = some ⟨buildShortAsc (.ofNat asc.objectType) (.ofNat freqIndex)
      (.ofNat asc.channelConfig), .ofNat asc.objectType, aacSampleRateFromFreqIndex (.ofNat freqIndex),
      .ofNat asc.channelConfig⟩ := by
    rw [accepts.written, extractAacConfig, decoded]
    have rated := (tables_agree freqIndex indexSmall).2
    have first : ([[SampleEntry.mp4a entry]].flatten).findSome? SampleEntry.aac = some entry := rfl
    rw [Option.bind_eq_bind, Option.bind_some, first, Option.bind_eq_bind, Option.bind_some, specific]
    exact if_neg rated
  exact ⟨_, found, short_asc_parses bytes asc freqIndex parsed accepts.plain extended accepts.indexed⟩

-- A decoder that hands back what was built.
def decodeBuilt : Mp4Decoder
  | .aac _ asc => (buildMp4a asc).toOption.map fun entry => [[.mp4a entry]]
  | _ => none

theorem decode_built (mp4 : Mp4Atom) : DecodesSpecific mp4 decodeBuilt := by
  intro params asc mp4a _ built
  refine ⟨mp4a, ?_, rfl⟩
  rw [decodeBuilt, built]
  rfl

theorem stereo_read_alike : Whep.parseAacAsc [0x12, 0x10] = some (2, 44100, 2) ∧
    ∃ found, extractAacConfig decodeBuilt (.aac ⟨[0x12, 0x10], 44100⟩ ⟨2, 44100, 2, false, false⟩) = some found ∧
      parseAsc found.asc = .ok ⟨2, 44100, 2, false, false⟩ := by
  have parsed : parseAsc [0x12, 0x10] = .ok ⟨2, 44100, 2, false, false⟩ := by decide
  have alike := aac_config_read_alike (fun _ => true) decodeBuilt (decode_built _) [0x12, 0x10] _ parsed
  refine ⟨alike.1.mpr (by decide), alike.2 44100 _ ?_ (by decide)⟩
  rw [writeAacInitSegment, parsed]
  decide

-- A frequency of 48000 Hz that is written out.
theorem explicit_rate_misread : parseAsc [0x17, 0x80, 0x5D, 0xC0, 0x10] = .ok ⟨2, 48000, 2, false, false⟩ ∧
    Whep.parseAacAsc [0x17, 0x80, 0x5D, 0xC0, 0x10] ≠ some (2, 48000, 2) := by decide

end Lvqr.Cmaf
