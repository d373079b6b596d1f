import Mathlib.Data.List.Forall2
import Lvqr.Lib.Bits
import Lvqr.Lib.Machine
import Lvqr.Srt.AudioClock

set_option autoImplicit false

-- ADTS frames as an encoder writes them.
namespace Lvqr.Srt

-- What stands in the header beside the frame length is free where the reader does
-- not look at it.
structure AdtsFrame where
  second : UInt8
  third : UInt8
  channel : Nat
  fullness : Nat
  last : UInt8
  crc : Bytes
  body : Bytes
  synced : second &&& 0xF0 = 0xF0
  channel_lt : channel < 64
  fullness_lt : fullness < 32
  crc_length : crc.length = if second &&& 0x01 = 0 then 2 else 0
  small : 7 + crc.length + body.length < 2 ^ 13

namespace AdtsFrame

variable (frame : AdtsFrame) (rest : Bytes)

def length : Nat := 7 + frame.crc.length + frame.body.length

def header : Bytes :=
  [0xFF, frame.second, frame.third, UInt8.ofNat (frame.channel * 4 + frame.length / 2048),
    UInt8.ofNat (frame.length / 8), UInt8.ofNat (frame.length % 8 * 32 + frame.fullness), frame.last]

def bytes : Bytes := frame.header ++ (frame.crc ++ frame.body)

theorem bytes_length : frame.bytes.length = frame.length := by
  simp only [bytes, header, length, List.length_append, List.length_cons, List.length_nil]
  omega

theorem is_sync : isAdtsSync (frame.bytes ++ rest) = true := by
  have first : byteAt (frame.bytes ++ rest) 0 = 0xFF := rfl
  have second : byteAt (frame.bytes ++ rest) 1 = frame.second := rfl
  rw [isAdtsSync, first, second, frame.synced]
  rfl

theorem read_header_len : adtsHeaderLen (frame.bytes ++ rest) = 7 + frame.crc.length := by
  have second : byteAt (frame.bytes ++ rest) 1 = frame.second := rfl
  rw [adtsHeaderLen, second, frame.crc_length]
  split <;> rfl

theorem read_frame_len : adtsFrameLen (frame.bytes ++ rest) = frame.length := by
  have small : frame.length < 2 ^ 13 := frame.small
  have channel := frame.channel_lt
  have fullness := frame.fullness_lt
  have high : (byteAt (frame.bytes ++ rest) 3 &&& 0x03).toNat = frame.length / 2048 := by
    show (UInt8.ofNat (frame.channel * 4 + frame.length / 2048) &&& 0x03).toNat = _
    rw [UInt8.toNat_and, Bits.byte_value _ (by omega)]
    exact (Bits.mask_eq_mod _ 2).trans (by omega)
  have middle : (byteAt (frame.bytes ++ rest) 4).toNat = frame.length / 8 % 256 := UInt8.toNat_ofNat'
  have low : (byteAt (frame.bytes ++ rest) 5 >>> 5).toNat = frame.length % 8 := by
    show (UInt8.ofNat (frame.length % 8 * 32 + frame.fullness) >>> 5).toNat = _
    rw [UInt8.toNat_shiftRight, Bits.byte_value _ (by omega)]
    exact (Nat.shiftRight_eq_div_pow _ 5).trans (by omega)
  have upper : (frame.length / 2048) <<< 11 ||| (frame.length / 8 % 256) <<< 3 = (frame.length / 8) <<< 3 := by
    rw [Nat.shiftLeft_eq (frame.length / 8 % 256), Bits.shift_or_eq_add _ _ _ (by omega), Nat.shiftLeft_eq]
    omega
  rw [adtsFrameLen, high, middle, low, upper, Bits.shift_or_eq_add _ _ _ (by omega)]
  omega

theorem read_frame : adtsFrames (frame.bytes ++ rest) = frame.body :: adtsFrames rest := by
  have size := frame.bytes_length
  have whole : (frame.bytes ++ rest).length = frame.length + rest.length := by rw [List.length_append, size]
  have header : 7 + frame.crc.length ≤ frame.length := Nat.le_add_right _ _
  have body : ((frame.bytes ++ rest).take frame.length).drop (7 + frame.crc.length) = frame.body := by
    rw [List.take_left' size, bytes, ← List.append_assoc]
    refine List.drop_left' ?_
    simp only [AdtsFrame.header, List.length_append, List.length_cons, List.length_nil]
  rw [adtsFrames, frame.is_sync rest, frame.read_frame_len rest, frame.read_header_len rest, dif_neg (by omega),
    if_neg (by decide), dif_neg (by omega), body, List.drop_left' size]

end AdtsFrame

theorem adts_frames_nil : adtsFrames [] = [] := by
  rw [adtsFrames, dif_pos (by decide)]

-- All frames of a payload come out, whatever their number.
theorem adts_frames_written (frames : List AdtsFrame) :
    adtsFrames (frames.flatMap AdtsFrame.bytes) = frames.map AdtsFrame.body := by
  induction frames with
  | nil => exact adts_frames_nil
  | cons frame frames ih => rw [List.flatMap_cons, frame.read_frame, ih, List.map_cons]

end Lvqr.Srt

-- ADTS frames over PES packets: each payload is scanned for itself.
namespace Lvqr.Srt

open Cmaf (Mp4Atom)
open Codec (objectTypeField frequencyField channelField AAC_SAMPLE_FREQUENCIES)
open Ingest (MediaState Publication AUDIO_TRACK)
open Ts (PesPacket)

def AdtsFrame.frequencyIndex (frame : AdtsFrame) : Nat := ((frame.third >>> 2) &&& 0x0F).toNat

def audioPayload (broadcast : String) : Publication → Option Bytes
  | .fragment name track _ _ sent => if name = broadcast ∧ track = AUDIO_TRACK then some sent.payload else none
  | .init .. => none

def audioPayloads (broadcast : String) (published : List Publication) : List Bytes :=
  published.filterMap (audioPayload broadcast)

def aacPayloads (packets : List PesPacket) : List Bytes :=
  (packets.filter fun pes => pes.streamType = .aac).map PesPacket.payload

-- No cut falls inside a frame.
def WholeFrames (frames : List AdtsFrame) (payloads : List Bytes) : Prop :=
  ∃ groups : List (List AdtsFrame), groups.flatten = frames ∧
    payloads = groups.map fun group => group.flatMap AdtsFrame.bytes

-- The init writer takes rates up to 65535 Hz.
def RateWritten (frames : List AdtsFrame) : Prop := ∀ frame, frames.head? = some frame → 2 ≤ frame.frequencyIndex

def Conserved (mp4 : Mp4Atom) (broadcast : String) (frames : List AdtsFrame) (packets : List PesPacket) : Prop :=
  audioPayloads broadcast (Machine.run (processPes mp4 broadcast) .new packets).published = frames.map AdtsFrame.body

theorem audio_payloads_snoc (broadcast : String) (published : List Publication) (publication : Publication) :
    audioPayloads broadcast (published ++ [publication]) =
      audioPayloads broadcast published ++ (audioPayload broadcast publication).toList := by
  rw [audioPayloads, List.filterMap_append, audioPayloads]
  cases sent : audioPayload broadcast publication <;> simp [sent]

-- What the state says of the audio track.
def AudioIs (broadcast : String) (out : Bool) (sent : List Bytes) (state : MediaState) : Prop :=
  state.audioInitEmitted = out ∧ audioPayloads broadcast state.published = sent

theorem audio_video_kept (mp4 : Mp4Atom) (broadcast : String) (out : Bool) (sent : List Bytes) :
    MediaState.VideoKept mp4 broadcast (AudioIs broadcast out sent) where
  stores _ _ _ _ held := held
  announces state format segment held _ := by
    refine ⟨held.1, ?_⟩
    show audioPayloads broadcast (state.published ++ [_]) = sent
    rw [audio_payloads_snoc, held.2]
    exact List.append_nil sent
  emits state codec dts pts keyframe payload held := by
    refine ⟨held.1, ?_⟩
    show audioPayloads broadcast (state.published ++ [_]) = sent
    rw [audio_payloads_snoc, held.2]
    have other : ¬ (broadcast = broadcast ∧ "0.mp4" = AUDIO_TRACK) := by
      rintro ⟨-, same⟩
      exact absurd same (by decide)
    rw [audioPayload, if_neg other]
    exact List.append_nil sent

theorem emit_all_aac_audio (broadcast : String) (dts pts : Nat) (bodies : List Bytes) (out : Bool) (sent : List Bytes)
    (state : MediaState) (held : AudioIs broadcast out sent state) :
    AudioIs broadcast out (sent ++ bodies) (bodies.foldl (MediaState.emitAacFrame broadcast dts pts) state) := by
  induction bodies generalizing state sent with
  | nil => rwa [List.append_nil]
  | cons body bodies ih =>
      rw [List.append_cons]
      refine ih _ _ ⟨held.1, ?_⟩
      show audioPayloads broadcast (state.published ++ [_]) = _
      rw [audio_payloads_snoc, held.2, audioPayload]
      exact congrArg _ (congrArg _ (if_pos ⟨rfl, rfl⟩))

theorem announce_aac_audio (mp4 : Mp4Atom) (broadcast : String) (asc : Bytes) (timescale : Nat) (out : Bool) (sent : List Bytes)
    (state ready : MediaState) (held : AudioIs broadcast out sent state)
    (announced : state.announceAac mp4 broadcast asc timescale = some ready) : AudioIs broadcast true sent ready := by
  obtain ⟨segment, -, rfl⟩ := Option.map_eq_some_iff.mp announced
  refine ⟨rfl, ?_⟩
  show audioPayloads broadcast (state.published ++ [_]) = sent
  rw [audio_payloads_snoc, held.2]
  exact List.append_nil sent

-- The bodies that a packet adds.
def sentOf (mp4 : Mp4Atom) (state : MediaState) (pes : PesPacket) : List Bytes :=
  if pes.streamType = .aac ∧ audioReady mp4 state pes.payload = true then adtsFrames pes.payload else []

theorem process_pes_audio (mp4 : Mp4Atom) (broadcast : String) (out : Bool) (sent : List Bytes) (state : MediaState)
    (pes : PesPacket) (held : AudioIs broadcast out sent state) :
    AudioIs broadcast (out || decide (pes.streamType = .aac ∧ audioReady mp4 state pes.payload = true))
      (sent ++ sentOf mp4 state pes) (processPes mp4 broadcast state pes) := by
  have video := audio_video_kept mp4 broadcast out sent
  rw [processPes, sentOf]
  cases kind : pes.streamType with
  | h264 =>
      simp only [reduceCtorEq, false_and, decide_false, Bool.or_false, if_false, List.append_nil]
      exact MediaState.process_nalus_keeps video .avc state _ _ _ _ held
  | h265 =>
      simp only [reduceCtorEq, false_and, decide_false, Bool.or_false, if_false, List.append_nil]
      exact MediaState.process_nalus_keeps video .hevc state _ _ _ _ held
  | scte35 | unknown =>
      simp only [reduceCtorEq, false_and, decide_false, Bool.or_false, if_false, List.append_nil]
      exact held
  | aac =>
      simp only [true_and, Bool.decide_eq_true]
      rw [processAac, ← ensure_aac_init_ready mp4 broadcast]
      cases ensured : ensureAacInit mp4 broadcast state pes.payload with
      | none => simpa using held
      | some ready =>
          simp only [Option.isSome_some, Bool.or_true, if_true]
          refine emit_all_aac_audio broadcast _ _ _ _ _ ready ?_
          obtain ⟨isOut, rfl⟩ | ⟨-, announced⟩ := ensure_aac_init_cases mp4 broadcast state ready pes.payload ensured
          · exact ⟨isOut, held.2⟩
          · exact announce_aac_audio mp4 broadcast _ _ out sent state ready held announced

-- The bodies of each AAC packet of a run, in order.
def sentRun (mp4 : Mp4Atom) (broadcast : String) : MediaState → List PesPacket → List (List Bytes)
  | _, [] => []
  | state, pes :: packets =>
      let later := sentRun mp4 broadcast (processPes mp4 broadcast state pes) packets
      if pes.streamType = .aac then sentOf mp4 state pes :: later else later

theorem run_audio (mp4 : Mp4Atom) (broadcast : String) (packets : List PesPacket) (out : Bool) (sent : List Bytes)
    (state : MediaState) (held : AudioIs broadcast out sent state) :
    audioPayloads broadcast (Machine.run (processPes mp4 broadcast) state packets).published =
      sent ++ (sentRun mp4 broadcast state packets).flatten := by
  induction packets generalizing out sent state with
  | nil =>
      rw [sentRun, List.flatten_nil, List.append_nil]
      exact held.2
  | cons pes packets ih =>
      have next := process_pes_audio mp4 broadcast out sent state pes held
      rw [Machine.run_cons, ih _ _ _ next, sentRun, List.append_assoc]
      by_cases aac : pes.streamType = .aac
      · rw [if_pos aac, List.flatten_cons]
      · rw [if_neg aac, sentOf, if_neg fun both => aac both.1, List.nil_append]

theorem aac_payloads_cons (pes : PesPacket) (packets : List PesPacket) :
    aacPayloads (pes :: packets) =
      if pes.streamType = .aac then pes.payload :: aacPayloads packets else aacPayloads packets := by
  by_cases aac : pes.streamType = .aac
  · rw [if_pos aac, aacPayloads, List.filter_cons, if_pos (decide_eq_true aac)]
    rfl
  · rw [if_neg aac, aacPayloads, List.filter_cons, if_neg fun same => aac (of_decide_eq_true same)]
    rfl

theorem quiet_packet (mp4 : Mp4Atom) (broadcast : String) (state : MediaState) (pes : PesPacket)
    (quiet : pes.streamType ≠ .aac) :
    (processPes mp4 broadcast state pes).audioInitEmitted = state.audioInitEmitted := by
  have next := process_pes_audio mp4 broadcast _ _ state pes ⟨rfl, rfl⟩
  rw [decide_eq_false fun both => quiet both.1, Bool.or_false] at next
  exact next.1

theorem ready_packet (mp4 : Mp4Atom) (broadcast : String) (state : MediaState) (pes : PesPacket) (aac : pes.streamType = .aac)
    (ready : audioReady mp4 state pes.payload = true) : (processPes mp4 broadcast state pes).audioInitEmitted = true := by
  have next := process_pes_audio mp4 broadcast _ _ state pes ⟨rfl, rfl⟩
  rw [decide_eq_true ⟨aac, ready⟩, Bool.or_true] at next
  exact next.1

-- The first AAC packet finds the init segment not yet out.
theorem first_sent (mp4 : Mp4Atom) (broadcast : String) (packets : List PesPacket) (state : MediaState)
    (notOut : state.audioInitEmitted = false) (payload : Bytes) (rest : List Bytes)
    (first : aacPayloads packets = payload :: rest) :
    ∃ later, sentRun mp4 broadcast state packets =
      (if audioReady mp4 .new payload = true then adtsFrames payload else []) :: later := by
  induction packets generalizing state with
  | nil => cases first
  | cons pes packets ih =>
      rw [aac_payloads_cons] at first
      rw [sentRun]
      by_cases aac : pes.streamType = .aac
      · rw [if_pos aac] at first
        obtain ⟨rfl, -⟩ := List.cons.inj first
        have same : audioReady mp4 state pes.payload = audioReady mp4 .new pes.payload := by
          rw [audioReady, notOut]
          rfl
        rw [if_pos aac, sentOf, same]
        simp only [aac, true_and]
        exact ⟨_, rfl⟩
      · rw [if_neg aac] at first
        rw [if_neg aac]
        exact ih _ ((quiet_packet mp4 broadcast state pes aac).trans notOut) first

-- A body stands behind a header of at least 7 bytes.
def framedLength (bodies : List Bytes) : Nat := (bodies.map fun body => 7 + body.length).sum

theorem adts_frames_fit (data : Bytes) : framedLength (adtsFrames data) ≤ data.length := by
  fun_induction adtsFrames data with
  | case1 data short => exact Nat.zero_le _
  | case2 data long apart => exact Nat.zero_le _
  | case3 data long sync cut => exact Nat.zero_le _
  | case4 data long sync whole ih =>
      have header := adts_header_len_ge data
      rw [framedLength, List.map_cons, List.sum_cons, ← framedLength, List.length_drop, List.length_take]
      rw [List.length_drop] at ih
      omega

theorem sent_fits (mp4 : Mp4Atom) (broadcast : String) (packets : List PesPacket) (state : MediaState) :
    List.Forall₂ (fun payload bodies => framedLength bodies ≤ payload.length) (aacPayloads packets)
      (sentRun mp4 broadcast state packets) := by
  induction packets generalizing state with
  | nil => exact .nil
  | cons pes packets ih =>
      rw [aac_payloads_cons, sentRun]
      by_cases aac : pes.streamType = .aac
      · rw [if_pos aac, if_pos aac]
        refine .cons ?_ (ih _)
        rw [sentOf]
        split
        · exact adts_frames_fit pes.payload
        · exact Nat.zero_le _
      · rw [if_neg aac, if_neg aac]
        exact ih _

theorem masked_le (byte mask : UInt8) : (byte &&& mask).toNat ≤ mask.toNat := by
  rw [UInt8.toNat_and]
  exact Nat.and_le_right

theorem adts_profile_small (byte : UInt8) : (((byte >>> 6) &&& 0x03) + 1).toNat < 5 := by
  have masked : ((byte >>> 6) &&& 0x03).toNat ≤ 3 := masked_le _ _
  rw [UInt8.toNat_add]
  exact Nat.lt_of_le_of_lt (Nat.mod_le _ _) (Nat.lt_succ_of_le (Nat.succ_le_succ masked))

theorem adts_channel_small (high low : UInt8) : (((high &&& 0x01) <<< 2) ||| ((low >>> 6) &&& 0x03)).toNat < 16 := by
  have masked : (high &&& 0x01).toNat ≤ 1 := masked_le _ _
  have lower : ((low >>> 6) &&& 0x03).toNat ≤ 3 := masked_le _ _
  have upper : ((high &&& 0x01) <<< 2).toNat ≤ 4 := by
    rw [UInt8.toNat_shiftLeft, Nat.shiftLeft_eq]
    exact Nat.le_trans (Nat.mod_le _ _) (Nat.mul_le_mul_right _ masked)
  rw [UInt8.toNat_or]
  exact Nat.or_lt_two_pow (n := 4) (by omega) (by omega)

theorem adts_frequency_small (byte : UInt8) : ((byte >>> 2) &&& 0x0F).toNat < 16 :=
  Nat.lt_succ_of_le (masked_le _ _)

-- Of the rates in the table the writer refuses the first two.
theorem adts_rates : ∀ index ≤ 12, ∃ rate, AAC_SAMPLE_FREQUENCIES[index]? = some rate ∧
    rate ∈ AAC_SAMPLE_FREQUENCIES ∧ (65535 < rate ↔ index < 2) := by
  intro index inTable
  have inside : index < AAC_SAMPLE_FREQUENCIES.length := Nat.lt_succ_of_le inTable
  refine ⟨AAC_SAMPLE_FREQUENCIES[index], List.getElem?_eq_getElem inside, List.getElem_mem inside, ?_⟩
  have all : ∀ index (inside : index < 13), 65535 < AAC_SAMPLE_FREQUENCIES[index] ↔ index < 2 := by decide
  exact all index (Nat.lt_succ_of_le inTable)

theorem adts_init_written (mp4 : Mp4Atom) (encodes : ∀ segment, mp4 segment = true) (frame : AdtsFrame) (rest : Bytes)
    (inTable : frame.frequencyIndex ≤ 12) :
    audioReady mp4 .new (frame.bytes ++ rest) = decide (2 ≤ frame.frequencyIndex) := by
  have long : 7 ≤ (frame.bytes ++ rest).length := by
    rw [List.length_append, frame.bytes_length, AdtsFrame.length]
    omega
  obtain ⟨objectType, frequency, channel⟩ := Codec.packed_fields _ _ _
    (Nat.lt_trans (adts_profile_small (byteAt (frame.bytes ++ rest) 2)) (by decide))
    (adts_frequency_small (byteAt (frame.bytes ++ rest) 2))
    (adts_channel_small (byteAt (frame.bytes ++ rest) 2) (byteAt (frame.bytes ++ rest) 3))
  obtain ⟨rate, isRate, known, high⟩ := adts_rates frame.frequencyIndex inTable
  have small := adts_profile_small (byteAt (frame.bytes ++ rest) 2)
  have parsed := Codec.parse_plain (adtsAsc (frame.bytes ++ rest)) rate (Nat.le_refl 2)
    (by rw [adtsAsc, adtsFreqIdx, objectType]; omega) (by rw [adtsAsc, adtsFreqIdx, objectType]; omega)
    (by rw [adtsAsc, adtsFreqIdx, frequency]; exact isRate)
  have written : (Cmaf.writeAacInitSegment mp4 ⟨adtsAsc (frame.bytes ++ rest),
      adtsSampleRate (adtsFreqIdx (frame.bytes ++ rest))⟩).toOption.isSome = decide (2 ≤ frame.frequencyIndex) := by
    rw [Cmaf.writeAacInitSegment, parsed]
    dsimp only
    rw [if_neg (not_not_intro known), if_neg (by rw [adtsAsc, adtsFreqIdx, objectType]; omega)]
    by_cases refused : 65535 < rate
    · rw [if_pos refused, decide_eq_false (Nat.not_le.mpr (high.mp refused))]
      rfl
    · rw [if_neg refused, Cmaf.encodeSegment, if_pos (encodes _),
        decide_eq_true (Nat.not_lt.mp fun low => refused (high.mpr low))]
      rfl
  rw [audioReady, decide_eq_true long, frame.is_sync rest, written]
  rfl

theorem ready_of_new (mp4 : Mp4Atom) (state : MediaState) (payload : Bytes) (ready : audioReady mp4 .new payload = true) :
    audioReady mp4 state payload = true := by
  have given : audioReady mp4 .new payload = _ := Bool.false_or _
  rw [given] at ready
  rw [audioReady, ready, Bool.or_true]

-- Where every payload holds whole frames, every body is sent.
theorem sent_whole (mp4 : Mp4Atom) (broadcast : String) (packets : List PesPacket) (groups : List (List AdtsFrame))
    (state : MediaState)
    (whole : aacPayloads packets = groups.map fun group => group.flatMap AdtsFrame.bytes)
    (opened : state.audioInitEmitted = true ∨
      ∀ payload rest, aacPayloads packets = payload :: rest → audioReady mp4 .new payload = true) :
    sentRun mp4 broadcast state packets = groups.map fun group => group.map AdtsFrame.body := by
  induction packets generalizing groups state with
  | nil =>
      obtain rfl := List.map_eq_nil_iff.mp whole.symm
      rfl
  | cons pes packets ih =>
      rw [aac_payloads_cons] at whole opened
      rw [sentRun]
      by_cases aac : pes.streamType = .aac
      · rw [if_pos aac] at whole opened
        cases groups with
        | nil => cases whole
        | cons group groups =>
            obtain ⟨payload, later⟩ := List.cons.inj whole
            have ready : audioReady mp4 state pes.payload = true := by
              cases opened with
              | inl out => rw [audioReady, out, Bool.true_or]
              | inr first => exact ready_of_new mp4 state _ (first _ _ rfl)
            rw [if_pos aac, sentOf, if_pos ⟨aac, ready⟩, payload, adts_frames_written,
              ih groups _ later (.inl (ready_packet mp4 broadcast state pes aac ready)), List.map_cons]
      · rw [if_neg aac] at whole opened
        rw [if_neg aac]
        refine ih groups _ whole ?_
        rw [quiet_packet mp4 broadcast state pes aac]
        exact opened

theorem regroup {First Second : Type} (f : First → Second) (values : List First) (parts : List (List Second))
    (same : values.map f = parts.flatten) :
    ∃ groups : List (List First), groups.flatten = values ∧ groups.map (List.map f) = parts := by
  induction parts generalizing values with
  | nil => exact ⟨[], (List.map_eq_nil_iff.mp same).symm, rfl⟩
  | cons part parts ih =>
      obtain ⟨group, later, rfl, rfl, rest⟩ := List.map_eq_append_iff.mp same
      obtain ⟨groups, rfl, rfl⟩ := ih later rest
      exact ⟨group :: groups, rfl, rfl⟩

-- Two cuts of one list, each part of the first as long as its counterpart at least.
theorem cuts_eq {Item : Type} (first second : List (List Item))
    (longer : List.Forall₂ (fun long short => short.length ≤ long.length) first second)
    (same : first.flatten = second.flatten) : first = second := by
  induction longer with
  | nil => rfl
  | @cons long short longs shorts enough later ih =>
      rw [List.flatten_cons, List.flatten_cons] at same
      have rest : shorts.flatten.length ≤ longs.flatten.length := by
        clear ih same
        induction later with
        | nil => exact Nat.le_refl _
        | cons here _ ih =>
            rw [List.flatten_cons, List.flatten_cons, List.length_append, List.length_append]
            exact Nat.add_le_add here ih
      have total := congrArg List.length same
      rw [List.length_append, List.length_append] at total
      obtain ⟨front, back⟩ := List.append_inj same (by omega)
      rw [front, ih back]

theorem framed_length (frames : List AdtsFrame) (plain : ∀ frame ∈ frames, frame.crc = []) :
    (frames.flatMap AdtsFrame.bytes).length = framedLength (frames.map AdtsFrame.body) := by
  induction frames with
  | nil => rfl
  | cons frame frames ih =>
      obtain ⟨here, later⟩ := List.forall_mem_cons.mp plain
      rw [List.flatMap_cons, List.length_append, frame.bytes_length, ih later, AdtsFrame.length, here]
      rfl

-- Without check words nothing is left over: what is sent takes up all bytes.
theorem whole_of_sent (mp4 : Mp4Atom) (broadcast : String) (frames : List AdtsFrame) (packets : List PesPacket)
    (cut : (aacPayloads packets).flatten = frames.flatMap AdtsFrame.bytes) (plain : ∀ frame ∈ frames, frame.crc = [])
    (sent : frames.map AdtsFrame.body = (sentRun mp4 broadcast .new packets).flatten) :
    ∃ groups : List (List AdtsFrame), groups.flatten = frames ∧
      groups.map (List.map AdtsFrame.body) = sentRun mp4 broadcast .new packets ∧
      aacPayloads packets = groups.map fun group => group.flatMap AdtsFrame.bytes := by
  obtain ⟨groups, rfl, bodies⟩ := regroup _ _ _ sent
  refine ⟨groups, rfl, bodies, cuts_eq _ _ ?_ ?_⟩
  · have fits := sent_fits mp4 broadcast packets .new
    rw [← bodies, List.forall₂_map_right_iff] at fits
    have paired := (List.forall₂_and_left _ _).mpr
      ⟨fun group inside frame member => plain frame (List.mem_flatten.mpr ⟨group, inside, member⟩), fits.flip⟩
    refine List.forall₂_map_right_iff.mpr (List.Forall₂.flip (paired.imp fun group payload both => ?_))
    exact Nat.le_trans (Nat.le_of_eq (framed_length group both.1)) both.2
  · rw [cut, List.flatMap_def, List.map_flatten, List.flatten_flatten, List.map_map]
    rfl

theorem written_of_sent (mp4 : Mp4Atom) (encodes : ∀ segment, mp4 segment = true) (broadcast : String)
    (groups : List (List AdtsFrame)) (valid : ∀ frame ∈ groups.flatten, frame.frequencyIndex ≤ 12)
    (packets : List PesPacket) (starts : ∀ payload, (aacPayloads packets).head? = some payload → 7 ≤ payload.length)
    (bodies : groups.map (List.map AdtsFrame.body) = sentRun mp4 broadcast .new packets)
    (whole : aacPayloads packets = groups.map fun group => group.flatMap AdtsFrame.bytes) : RateWritten groups.flatten := by
  intro frame first
  cases groups with
  | nil => cases first
  | cons group groups =>
      rw [List.map_cons] at whole bodies
      obtain ⟨later, sent⟩ := first_sent mp4 broadcast packets .new rfl _ _ whole
      have long := starts _ (by rw [whole]; rfl)
      cases group with
      | nil => exact absurd long (by decide)
      | cons head group =>
          obtain rfl : head = frame := Option.some.inj first
          have isReady := adts_init_written mp4 encodes head (group.flatMap AdtsFrame.bytes) (valid head (by simp))
          by_contra low
          rw [List.flatMap_cons, isReady, decide_eq_false low, if_neg (by decide)] at sent
          rw [sent] at bodies
          cases bodies

theorem adts_conserved_iff (mp4 : Mp4Atom) (encodes : ∀ segment, mp4 segment = true) (broadcast : String)
    (frames : List AdtsFrame) (valid : ∀ frame ∈ frames, frame.frequencyIndex ≤ 12) (packets : List PesPacket)
    (cut : (aacPayloads packets).flatten = frames.flatMap AdtsFrame.bytes)
    (starts : ∀ payload, (aacPayloads packets).head? = some payload → 7 ≤ payload.length) :
    (RateWritten frames ∧ WholeFrames frames (aacPayloads packets) → Conserved mp4 broadcast frames packets) ∧
      ((∀ frame ∈ frames, frame.crc = []) →
        (Conserved mp4 broadcast frames packets ↔ RateWritten frames ∧ WholeFrames frames (aacPayloads packets))) := by
  have ran := run_audio mp4 broadcast packets false [] .new ⟨rfl, rfl⟩
  rw [List.nil_append] at ran
  have enough : RateWritten frames ∧ WholeFrames frames (aacPayloads packets) → Conserved mp4 broadcast frames packets := by
    rintro ⟨written, groups, rfl, whole⟩
    have opened : ∀ payload rest, aacPayloads packets = payload :: rest → audioReady mp4 .new payload = true := by
      intro payload rest first
      have long := starts payload (by rw [first]; rfl)
      cases groups with
      | nil =>
          rw [whole] at first
          cases first
      | cons group groups =>
          rw [whole] at first
          obtain ⟨rfl, -⟩ := List.cons.inj first
          cases group with
          | nil => exact absurd long (by decide)
          | cons head group =>
              dsimp only
              rw [List.flatMap_cons, adts_init_written mp4 encodes head _ (valid head (by simp))]
              exact decide_eq_true (written head rfl)
    rw [Conserved, ran, sent_whole mp4 broadcast packets groups .new whole (.inr opened), List.map_flatten]
  refine ⟨enough, fun plain => ⟨fun conserved => ?_, enough⟩⟩
  obtain ⟨groups, rfl, bodies, whole⟩ := whole_of_sent mp4 broadcast frames packets cut plain (conserved.symm.trans ran)
  exact ⟨written_of_sent mp4 encodes broadcast groups valid packets starts bodies whole, groups, rfl, whole⟩

def shortFrame : AdtsFrame where
  second := 0xF1
  third := 0x50
  channel := 32
  fullness := 31
  last := 0xFC
  crc := []
  body := [0xAA, 0xBB]
  synced := by decide
  channel_lt := by decide
  fullness_lt := by decide
  crc_length := by decide
  small := by decide

def aacPacket (payload : Bytes) : PesPacket where
  pid := 257
  streamType := .aac
  pts := some 0
  dts := none
  payload := payload

theorem whole_frame_conserved : Conserved (fun _ => true) "live" [shortFrame] [aacPacket shortFrame.bytes] := by
  have written : RateWritten [shortFrame] := by
    intro frame first
    rw [← Option.some.inj first]
    decide
  exact (adts_conserved_iff (fun _ => true) (fun _ => rfl) "live" [shortFrame] (List.forall_mem_singleton.mpr (by decide))
    [aacPacket shortFrame.bytes] (by decide) (by decide)).1 ⟨written, [[shortFrame]], rfl, by decide⟩

-- The last byte of a frame comes in the packet behind it.
theorem straddling_frame_lost : ¬ Conserved (fun _ => true) "live" [shortFrame]
    [aacPacket (shortFrame.bytes.take 8), aacPacket (shortFrame.bytes.drop 8)] := by
  intro conserved
  have ran := run_audio (fun _ => true) "live" [aacPacket (shortFrame.bytes.take 8), aacPacket (shortFrame.bytes.drop 8)]
    false [] .new ⟨rfl, rfl⟩
  obtain ⟨groups, flat, -, whole⟩ := whole_of_sent (fun _ => true) "live" [shortFrame] _ (by decide)
    (List.forall_mem_singleton.mpr (by decide)) (conserved.symm.trans ran)
  cases groups with
  | nil => cases whole
  | cons group groups =>
      have length : 8 = (group.flatMap AdtsFrame.bytes).length := congrArg List.length (List.cons.inj whole).1
      cases group with
      | nil => cases length
      | cons head group =>
          obtain rfl : head = shortFrame := (List.cons.inj flat).1
          have size : shortFrame.length = 9 := by decide
          rw [List.flatMap_cons, List.length_append, shortFrame.bytes_length, size] at length
          omega

end Lvqr.Srt
