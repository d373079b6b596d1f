import Mathlib.Data.Int.ModEq
import Mathlib.Data.Nat.Bitwise
import Lvqr.Bytes
import Lvqr.Lib.BigEndian
import Lvqr.Cmaf.Coalescer
import Lvqr.Rtmp.Bridge

set_option autoImplicit false

-- The FLV video tags that an RTMP publisher sends, from their bytes.
namespace Lvqr.Rtmp.Flv

structure VideoConfig where
  spsList : List Bytes
  ppsList : List Bytes
  profile : UInt8
  compat : UInt8
  level : UInt8
  naluLengthSize : UInt8
deriving DecidableEq, Repr

inductive VideoTag where
  | sequenceHeader (config : VideoConfig)
  | nalu (keyframe : Bool) (cts : Int) (data : Bytes)
  | endOfSequence
  | unknown
deriving DecidableEq, Repr

-- A counted run of parameter sets, each behind its length, and what is left behind
-- them in place of an offset.
def readSets : Nat → Bytes → Option (List Bytes × Bytes)
  | 0, data => some ([], data)
  | count + 1, data =>
      if data.length < 2 then none
      else
        let length := BigEndian.value (data.take 2)
        let data := data.drop 2
        if data.length < length then none
        else (readSets count (data.drop length)).map fun (sets, rest) => (data.take length :: sets, rest)

def parseAvccRecord (data : Bytes) : Option VideoConfig :=
  if data.length < 6 then none
  else
    match readSets (data.getD 5 0 &&& 0x1F).toNat (data.drop 6) with
    | none => none
    | some (_, []) => none
    | some (spsList, numPps :: rest) =>
        match readSets numPps.toNat rest with
        | none => none
        | some (ppsList, _) =>
            if spsList = [] ∨ ppsList = [] then none
            else
              some ⟨spsList, ppsList, data.getD 1 0, data.getD 2 0, data.getD 3 0, (data.getD 4 0 &&& 0x03) + 1⟩

-- An i32 of 24 bits, extended by its sign.
def signExtend (high middle low : UInt8) : Int32 :=
  let cts : UInt32 := high.toUInt32 <<< 16 ||| middle.toUInt32 <<< 8 ||| low.toUInt32
  (if cts &&& 0x800000 ≠ 0 then cts ||| ~~~0xFFFFFF else cts).toInt32

def parseVideoTag (data : Bytes) : VideoTag :=
  if data.length < 2 then .unknown
  else if data.getD 0 0 &&& 0x0F ≠ 7 then .unknown
  else if data.getD 1 0 = 0 then
    if data.length < 10 then .unknown
    else
      match parseAvccRecord (data.drop 5) with
      | some config => .sequenceHeader config
      | none => .unknown
  else if data.getD 1 0 = 1 then
    if data.length < 5 then .unknown
    else .nalu (data.getD 0 0 >>> 4 = 1) (signExtend (data.getD 2 0) (data.getD 3 0) (data.getD 4 0)).toInt (data.drop 5)
  else if data.getD 1 0 = 2 then .endOfSequence
  else .unknown

-- The composition offset as the format states it: a signed big-endian number of
-- three bytes.
def compositionOffset (data : Bytes) : Int := (BigEndian.value ((data.drop 2).take 3) : Int).bmod (2 ^ 24)

theorem shifted_or (high low : Nat) (width : Nat) (small : low < 2 ^ width) :
    high <<< width ||| low = high * 2 ^ width + low := by
  rw [← Nat.shiftLeft_add_eq_or_of_lt small, Nat.shiftLeft_eq]

theorem shifted_byte (byte : UInt8) : (byte.toUInt32 <<< 8).toNat = byte.toNat * 2 ^ 8 ∧
    (byte.toUInt32 <<< 16).toNat = byte.toNat * 2 ^ 16 := by
  have bound := byte.toNat_lt
  refine ⟨?_, ?_⟩
  · rw [UInt32.toNat_shiftLeft, UInt8.toNat_toUInt32, Nat.shiftLeft_eq]
    exact Nat.mod_eq_of_lt (Nat.lt_of_lt_of_le (Nat.mul_lt_mul_of_pos_right bound (by decide)) (by decide))
  · rw [UInt32.toNat_shiftLeft, UInt8.toNat_toUInt32, Nat.shiftLeft_eq]
    exact Nat.mod_eq_of_lt (Nat.lt_of_lt_of_le (Nat.mul_lt_mul_of_pos_right bound (by decide)) (by decide))

theorem three_bytes (high middle low : UInt8) :
    (high.toUInt32 <<< 16 ||| middle.toUInt32 <<< 8 ||| low.toUInt32).toNat = BigEndian.value [high, middle, low] := by
  have middleBound := middle.toNat_lt
  have lowBound := low.toNat_lt
  have front : (high.toUInt32 <<< 16 ||| middle.toUInt32 <<< 8).toNat = (high.toNat * 2 ^ 8 + middle.toNat) * 2 ^ 8 := by
    rw [UInt32.toNat_or, (shifted_byte high).2, (shifted_byte middle).1, ← Nat.shiftLeft_eq, shifted_or _ _ _ (by omega)]
    omega
  rw [UInt32.toNat_or, front, UInt8.toNat_toUInt32, ← Nat.shiftLeft_eq, shifted_or _ _ _ lowBound]
  simp only [BigEndian.value, List.length_cons, List.length_nil]
  omega

theorem sign_bit (cts : UInt32) (small : cts.toNat < 2 ^ 24) : cts &&& 0x800000 ≠ 0 ↔ 2 ^ 23 ≤ cts.toNat := by
  have mask : (0x800000 : UInt32).toNat = 2 ^ 23 := by decide
  have bit : cts.toNat.testBit 23 = decide (2 ^ 23 ≤ cts.toNat) := by
    rw [Nat.testBit_eq_decide_div_mod_eq]
    exact decide_eq_decide.mpr (by omega)
  rw [ne_eq, ← UInt32.toNat_inj, UInt32.toNat_and, mask, Nat.and_two_pow, bit]
  by_cases negative : 2 ^ 23 ≤ cts.toNat
  · rw [decide_eq_true negative]
    exact iff_of_true (by decide) negative
  · rw [decide_eq_false negative]
    exact iff_of_false (fun set => set rfl) negative

theorem sign_bits (cts : UInt32) (small : cts.toNat < 2 ^ 24) : (cts ||| ~~~0xFFFFFF).toNat = 0xFF * 2 ^ 24 + cts.toNat := by
  have ones : (~~~0xFFFFFF : UInt32).toNat = 0xFF <<< 24 := by decide
  rw [UInt32.toNat_or, ones, Nat.lor_comm, shifted_or _ _ _ small]

theorem int_of_word (word : UInt32) : word.toInt32.toInt = (word.toNat : Int).bmod (2 ^ 32) :=
  BitVec.toInt_eq_toNat_bmod word.toBitVec

-- The bits over the sign are ones, which takes 2^24 off a number that has the sign.
theorem sign_extend_value (high middle low : UInt8) :
    (signExtend high middle low).toInt = (BigEndian.value [high, middle, low] : Int).bmod (2 ^ 24) := by
  have number := three_bytes high middle low
  have small : BigEndian.value [high, middle, low] < 2 ^ 24 := by
    simpa using BigEndian.value_lt [high, middle, low]
  unfold signExtend
  dsimp only
  revert number
  generalize (high.toUInt32 <<< 16 ||| middle.toUInt32 <<< 8 ||| low.toUInt32) = cts
  intro number
  rw [← number] at small ⊢
  by_cases negative : 2 ^ 23 ≤ cts.toNat
  · rw [if_pos ((sign_bit cts small).mpr negative), int_of_word, sign_bits cts small, Int.bmod_def, Int.bmod_def]
    push_cast
    split <;> split <;> omega
  · rw [if_neg fun set => negative ((sign_bit cts small).mp set), int_of_word, Int.bmod_def, Int.bmod_def]
    split <;> split <;> omega

-- An AVC picture: the codec is 7, the packet type is 1, and the offset is there.
def CarriesPicture (data : Bytes) : Prop := 5 ≤ data.length ∧ data.getD 0 0 &&& 0x0F = 7 ∧ data.getD 1 0 = 1

instance (data : Bytes) : Decidable (CarriesPicture data) := inferInstanceAs (Decidable (_ ∧ _ ∧ _))

theorem composition_offset_bytes (data : Bytes) (long : 5 ≤ data.length) :
    (signExtend (data.getD 2 0) (data.getD 3 0) (data.getD 4 0)).toInt = compositionOffset data := by
  match data with
  | _ :: _ :: _ :: _ :: _ :: _ => exact sign_extend_value _ _ _
  | [_, _, _, _] | [_, _, _] | [_, _] | [_] | [] => simp at long

theorem parse_picture (data : Bytes) (picture : CarriesPicture data) :
    parseVideoTag data = .nalu (data.getD 0 0 >>> 4 = 1) (compositionOffset data) (data.drop 5) := by
  obtain ⟨long, codec, packet⟩ := picture
  have other : data.getD 1 0 ≠ 0 := by rw [packet]; decide
  rw [parseVideoTag, if_neg (by omega), if_neg (not_not.mpr codec), if_neg other, if_pos packet, if_neg (by omega),
    composition_offset_bytes data long]

theorem parse_other (data : Bytes) (other : ¬ CarriesPicture data) (keyframe : Bool) (cts : Int) (payload : Bytes) :
    parseVideoTag data ≠ .nalu keyframe cts payload := by
  intro parsed
  rw [parseVideoTag] at parsed
  split at parsed
  · cases parsed
  · split at parsed
    · cases parsed
    · rename_i codec
      split at parsed
      · split at parsed
        · cases parsed
        · split at parsed <;> cases parsed
      · split at parsed
        · rename_i packet
          split at parsed
          · cases parsed
          · rename_i long
            exact other ⟨Nat.le_of_not_lt long, not_not.mp codec, packet⟩
        · split at parsed <;> cases parsed

theorem balanced_range (value : Nat) : -2 ^ 23 ≤ (value : Int).bmod (2 ^ 24) ∧ (value : Int).bmod (2 ^ 24) < 2 ^ 23 := by
  rw [Int.bmod_def]
  split <;> omega

theorem composition_offset_range (data : Bytes) : -2 ^ 23 ≤ compositionOffset data ∧ compositionOffset data < 2 ^ 23 :=
  balanced_range _

end Lvqr.Rtmp.Flv

-- The integer arithmetic of the video callback. A number out of range is a panic in
-- a build with overflow checks and wraps in one without.
namespace Lvqr.Rtmp

open Cmaf (RawSample)
open Flv (parseVideoTag compositionOffset CarriesPicture)
open Media (Fragment)

variable (overflowChecks : Bool)

def checkedUnsigned (width value : Nat) : Option Nat :=
  if value < 2 ^ width then some value else if overflowChecks then none else some (value % 2 ^ width)

def checkedSigned (value : Int) : Option Int :=
  if -2 ^ 31 ≤ value ∧ value < 2 ^ 31 then some value
  else if overflowChecks then none
  else some (value.bmod (2 ^ 32))

def pushPicture (stream : ActiveStream) (keyframe : Bool) (cts : Int) (data : Bytes) (timestamp : UInt32) :
    Option (RawSample × Fragment) := do
  let durationMs :=
    match stream.lastVideoTs with
    | some previous => timestamp.toNat - previous
    | none => 33
  let durationTicks ← checkedUnsigned overflowChecks 32 (durationMs * 90)
  let baseDts ← checkedUnsigned overflowChecks 64 (timestamp.toNat * 90)
  let ctsOffset ← checkedSigned overflowChecks (cts * 90)
  let videoSeq ← checkedUnsigned overflowChecks 32 (stream.videoSeq + 1)
  -- The offset is cast to u64 before it is scaled.
  let scaled ← checkedUnsigned overflowChecks 64 ((cts % 2 ^ 64).toNat * 90)
  let sample : RawSample :=
    { trackId := 1
      dts := baseDts
      ctsOffset := ctsOffset
      duration := UInt32.ofNat durationTicks
      payload := data
      keyframe := keyframe }
  let fragment : Fragment :=
    { trackId := "0.mp4"
      groupId := videoSeq
      dts := baseDts
      pts := min (2 ^ 64 - 1) (baseDts + scaled)
      duration := durationTicks
      flags := .ofKeyframe keyframe
      payload := data }
  return (sample, fragment)

-- What the callback pushes for a tag; the outer `none` is a panic.
def videoCallback (stream : ActiveStream) (data : Bytes) (timestamp : UInt32) : Option (Option (RawSample × Fragment)) :=
  match parseVideoTag data with
  | .nalu keyframe cts payload =>
      if stream.videoInit.isNone then some none
      else (pushPicture overflowChecks stream keyframe cts payload timestamp).map some
  | _ => some none

-- A negative offset that wraps or saturates would present the picture behind its
-- decoding time.
structure ExactTime (stream : ActiveStream) (data : Bytes) (timestamp : UInt32) : Prop where
  exact : ∀ sample fragment, videoCallback overflowChecks stream data timestamp = some (some (sample, fragment)) →
    0 ≤ (fragment.dts : Int) + 90 * compositionOffset data → (fragment.pts : Int) = fragment.dts + 90 * compositionOffset data
  negative : CarriesPicture data → stream.videoInit ≠ none → compositionOffset data < 0 →
    ∃ sample fragment, videoCallback overflowChecks stream data timestamp = some (some (sample, fragment)) ∧
      fragment.pts ≤ fragment.dts

theorem checked_unsigned_small (width value : Nat) (small : value < 2 ^ width) :
    checkedUnsigned overflowChecks width value = some value := if_pos small

theorem dts_small (timestamp : UInt32) : timestamp.toNat * 90 < 2 ^ 64 - 2 ^ 32 := by
  have bound := timestamp.toNat_lt
  omega

theorem push_picture_some (stream : ActiveStream) (keyframe : Bool) (cts : Int) (data : Bytes) (timestamp : UInt32)
    (sample : RawSample) (fragment : Fragment)
    (pushed : pushPicture overflowChecks stream keyframe cts data timestamp = some (sample, fragment)) :
    sample.payload = data ∧ fragment.dts = timestamp.toNat * 90 ∧ ∃ scaled,
      checkedUnsigned overflowChecks 64 ((cts % 2 ^ 64).toNat * 90) = some scaled ∧
        fragment.pts = min (2 ^ 64 - 1) (timestamp.toNat * 90 + scaled) := by
  have dts := checked_unsigned_small overflowChecks 64 (timestamp.toNat * 90)
    (Nat.lt_of_lt_of_le (dts_small timestamp) (Nat.sub_le _ _))
  obtain ⟨durationTicks, _, afterDuration⟩ := Option.bind_eq_some_iff.mp pushed
  obtain ⟨baseDts, isDts, afterDts⟩ := Option.bind_eq_some_iff.mp afterDuration
  obtain ⟨ctsOffset, _, afterOffset⟩ := Option.bind_eq_some_iff.mp afterDts
  obtain ⟨videoSeq, _, afterSeq⟩ := Option.bind_eq_some_iff.mp afterOffset
  obtain ⟨scaled, isScaled, done⟩ := Option.bind_eq_some_iff.mp afterSeq
  rw [dts] at isDts
  obtain rfl := Option.some.inj isDts
  obtain ⟨rfl, rfl⟩ := Prod.mk.inj (Option.some.inj done)
  exact ⟨rfl, rfl, scaled, isScaled, rfl⟩

theorem scaled_nonnegative (cts : Int) (nonnegative : 0 ≤ cts) (small : cts < 2 ^ 23) :
    checkedUnsigned overflowChecks 64 ((cts % 2 ^ 64).toNat * 90) = some (cts.toNat * 90) := by
  have cast : cts % 2 ^ 64 = cts := Int.emod_eq_of_lt nonnegative (Int.lt_trans small (by decide))
  rw [cast]
  exact checked_unsigned_small overflowChecks 64 _ (by omega)

theorem scaled_negative (cts : Int) (negative : cts < 0) (small : -2 ^ 23 ≤ cts) :
    checkedUnsigned overflowChecks 64 ((cts % 2 ^ 64).toNat * 90) =
      if overflowChecks then none else some (2 ^ 64 - (-cts).toNat * 90) := by
  have cast : (cts % 2 ^ 64).toNat = 2 ^ 64 - (-cts).toNat := by
    rw [← Int.add_emod_right, Int.emod_eq_of_lt (by omega) (by omega)]
    omega
  have large : ¬ (2 ^ 64 - (-cts).toNat) * 90 < 2 ^ 64 := by omega
  have wrapped : (2 ^ 64 - (-cts).toNat) * 90 % 2 ^ 64 = 2 ^ 64 - (-cts).toNat * 90 := by omega
  rw [cast, checkedUnsigned, if_neg large, wrapped]

theorem video_callback_picture (stream : ActiveStream) (data : Bytes) (timestamp : UInt32) (picture : CarriesPicture data)
    (configured : stream.videoInit ≠ none) :
    videoCallback overflowChecks stream data timestamp =
      (pushPicture overflowChecks stream (data.getD 0 0 >>> 4 = 1) (compositionOffset data) (data.drop 5) timestamp).map
        some := by
  rw [videoCallback, Flv.parse_picture data picture]
  exact if_neg (by simpa using configured)

-- What the callback pushes comes from a picture of a stream with a configuration.
theorem video_callback_pushed (stream : ActiveStream) (data : Bytes) (timestamp : UInt32) (sample : RawSample)
    (fragment : Fragment) (pushed : videoCallback overflowChecks stream data timestamp = some (some (sample, fragment))) :
    CarriesPicture data ∧ stream.videoInit ≠ none ∧
      pushPicture overflowChecks stream (data.getD 0 0 >>> 4 = 1) (compositionOffset data) (data.drop 5) timestamp =
        some (sample, fragment) := by
  by_cases picture : CarriesPicture data
  · by_cases configured : stream.videoInit = none
    · rw [videoCallback, Flv.parse_picture data picture, configured] at pushed
      cases pushed
    · rw [video_callback_picture overflowChecks stream data timestamp picture configured] at pushed
      obtain ⟨pair, done, isPair⟩ := Option.map_eq_some_iff.mp pushed
      exact ⟨picture, configured, by rw [done, Option.some.inj isPair]⟩
  · rw [videoCallback] at pushed
    split at pushed
    · rename_i keyframe cts payload parsed
      exact absurd parsed (Flv.parse_other data picture keyframe cts payload)
    · cases pushed

-- Without overflow checks this is the picture that the bridge publishes.
theorem push_picture_release (stream : ActiveStream) (keyframe : Bool) (cts : Int) (data : Bytes) (timestamp : UInt32) :
    (pushPicture false stream keyframe cts data timestamp).map Prod.snd =
      some { RtmpMoqBridge.videoFragment stream keyframe cts data timestamp.toNat with
        groupId := (stream.videoSeq + 1) % 2 ^ 32 } := by
  have wraps : ∀ width value, checkedUnsigned false width value = some (value % 2 ^ width) := by
    intro width value
    rw [checkedUnsigned]
    split
    · rename_i small
      rw [Nat.mod_eq_of_lt small]
    · rfl
  have dts := checked_unsigned_small false 64 (timestamp.toNat * 90)
    (Nat.lt_of_lt_of_le (dts_small timestamp) (Nat.sub_le _ _))
  obtain ⟨offset, isOffset⟩ : ∃ offset, checkedSigned false (cts * 90) = some offset := by
    rw [checkedSigned]
    split
    · exact ⟨_, rfl⟩
    · exact ⟨_, rfl⟩
  rw [pushPicture, dts, isOffset, wraps, wraps, wraps]
  rfl

theorem exact_time_iff (stream : ActiveStream) (data : Bytes) (timestamp : UInt32) :
    ExactTime overflowChecks stream data timestamp ↔
      (CarriesPicture data → stream.videoInit ≠ none → 0 ≤ compositionOffset data) := by
  obtain ⟨low, high⟩ := Flv.composition_offset_range data
  have dts := dts_small timestamp
  constructor
  · intro times picture configured
    by_contra below
    obtain ⟨sample, fragment, pushed, early⟩ := times.negative picture configured (Int.not_le.mp below)
    obtain ⟨_, _, done⟩ := video_callback_pushed overflowChecks stream data timestamp sample fragment pushed
    obtain ⟨_, isDts, scaled, isScaled, isPts⟩ := push_picture_some overflowChecks stream _ _ _ _ sample fragment done
    rw [scaled_negative overflowChecks _ (Int.not_le.mp below) low] at isScaled
    split at isScaled
    · cases isScaled
    · obtain rfl := Option.some.inj isScaled
      omega
  · intro nonnegative
    refine ⟨fun sample fragment pushed _ => ?_, fun picture configured below => ?_⟩
    · obtain ⟨picture, configured, done⟩ := video_callback_pushed overflowChecks stream data timestamp sample fragment pushed
      obtain ⟨_, isDts, scaled, isScaled, isPts⟩ := push_picture_some overflowChecks stream _ _ _ _ sample fragment done
      have above := nonnegative picture configured
      rw [scaled_nonnegative overflowChecks _ above high] at isScaled
      obtain rfl := Option.some.inj isScaled
      omega
    · exact absurd (nonnegative picture configured) (Int.not_le.mpr below)

def runningStream : ActiveStream := ⟨some [], none, 5, 0, some 960⟩

-- A picture forty milliseconds ahead of its decoding time, one second into the stream.
def earlyPicture : Bytes := [0x27, 1, 0xFF, 0xFF, 0xD8, 0, 0, 0, 1, 0x41]

theorem early_picture_saturates :
    compositionOffset earlyPicture = -40 ∧
      (videoCallback false runningStream earlyPicture 1000).map (Option.map fun pushed => (pushed.2.dts, pushed.2.pts)) =
        some (some (90000, 2 ^ 64 - 1)) ∧
      videoCallback true runningStream earlyPicture 1000 = none ∧
      ¬ ∀ stream data timestamp, ExactTime false stream data timestamp := by
  have saturates : (videoCallback false runningStream earlyPicture 1000).map
      (Option.map fun pushed => (pushed.2.dts, pushed.2.pts)) = some (some (90000, 2 ^ 64 - 1)) := by decide
  refine ⟨by decide, saturates, by decide, fun always => ?_⟩
  obtain ⟨sample, fragment, pushed, early⟩ := (always runningStream earlyPicture 1000).negative (by decide)
    (by decide) (by decide)
  rw [pushed] at saturates
  have times : (fragment.dts, fragment.pts) = (90000, 2 ^ 64 - 1) := Option.some.inj (Option.some.inj saturates)
  obtain ⟨dts, pts⟩ := Prod.mk.inj times
  omega

end Lvqr.Rtmp
