import Lvqr.Ingest.MediaState
import Lvqr.Ts.Demuxer
import Lvqr.Ingest.Stamps

set_option autoImplicit false

-- One SRT connection: its demuxed PES packets become fragments.
namespace Lvqr.Srt

open Cmaf (Mp4Atom)
open Codec (splitAnnexB avcNalType hevcNalType)
open Ingest (MediaState)
open Ts (PesPacket)

def pesDts (pes : PesPacket) : Nat := (pes.dts.or pes.pts).getD 0

def pesPts (pes : PesPacket) : Nat := pes.pts.getD (pesDts pes)

def processH264 (mp4 : Mp4Atom) (broadcast : String) (state : MediaState) (pes : PesPacket) : MediaState :=
  let nalus := splitAnnexB pes.payload
  let keyframe := nalus.any fun nal => avcNalType nal == 5
  state.processNalus mp4 .avc broadcast nalus (pesDts pes) (pesPts pes) keyframe

def isHevcKeyframe (nal : Bytes) : Bool :=
  2 ≤ nal.length && (19 ≤ hevcNalType nal && hevcNalType nal ≤ 21)

def processHevc (mp4 : Mp4Atom) (broadcast : String) (state : MediaState) (pes : PesPacket) : MediaState :=
  let nalus := splitAnnexB pes.payload
  state.processNalus mp4 .hevc broadcast nalus (pesDts pes) (pesPts pes) (nalus.any isHevcKeyframe)

def byteAt (data : Bytes) (index : Nat) : UInt8 := data.getD index 0

def isAdtsSync (data : Bytes) : Bool := byteAt data 0 == 0xFF && byteAt data 1 &&& 0xF0 == 0xF0

def adtsFreqIdx (data : Bytes) : UInt8 := (byteAt data 2 >>> 2) &&& 0x0F

def adtsSampleRate (freqIdx : UInt8) : Nat :=
  match freqIdx with
  | 0 => 96000
  | 1 => 88200
  | 2 => 64000
  | 3 => 48000
  | 4 => 44100
  | 5 => 32000
  | 6 => 24000
  | 7 => 22050
  | 8 => 16000
  | 9 => 12000
  | 10 => 11025
  | 11 => 8000
  | _ => 44100

def adtsAsc (data : Bytes) : Bytes :=
  let profile := ((byteAt data 2 >>> 6) &&& 0x03) + 1
  let freqIdx := adtsFreqIdx data
  let channel := ((byteAt data 2 &&& 0x01) <<< 2) ||| ((byteAt data 3 >>> 6) &&& 0x03)
  [(profile <<< 3) ||| (freqIdx >>> 1), ((freqIdx &&& 1) <<< 7) ||| (channel <<< 3)]

def adtsHeaderLen (data : Bytes) : Nat := if byteAt data 1 &&& 0x01 = 0 then 9 else 7

theorem adts_header_len_ge (data : Bytes) : 7 ≤ adtsHeaderLen data := by
  unfold adtsHeaderLen
  split <;> decide

def adtsFrameLen (data : Bytes) : Nat :=
  (byteAt data 3 &&& 0x03).toNat <<< 11 ||| (byteAt data 4).toNat <<< 3 ||| (byteAt data 5 >>> 5).toNat

-- The raw frames behind the ADTS headers of a payload, up to the first header that
-- does not parse. `data` is the payload from the source's `offset` on.
def adtsFrames (data : Bytes) : List Bytes :=
  if _short : data.length < 7 then []
  else if isAdtsSync data = false then []
  else if _cut : adtsFrameLen data < adtsHeaderLen data ∨ data.length < adtsFrameLen data then []
  else (data.take (adtsFrameLen data)).drop (adtsHeaderLen data) :: adtsFrames (data.drop (adtsFrameLen data))
termination_by data.length
decreasing_by
  have header : 7 ≤ adtsHeaderLen data := adts_header_len_ge data
  rw [List.length_drop]
  omega

def ensureAacInit (mp4 : Mp4Atom) (broadcast : String) (state : MediaState) (payload : Bytes) : Option MediaState :=
  if state.audioInitEmitted then some state
  else if payload.length < 7 then none
  else if isAdtsSync payload = false then none
  else state.announceAac mp4 broadcast (adtsAsc payload) (adtsSampleRate (adtsFreqIdx payload))

-- An init segment was out before, or it is announced now.
theorem ensure_aac_init_cases (mp4 : Mp4Atom) (broadcast : String) (state ready : MediaState) (payload : Bytes)
    (ensured : ensureAacInit mp4 broadcast state payload = some ready) :
    (state.audioInitEmitted = true ∧ ready = state) ∨
      (state.audioInitEmitted = false ∧
        state.announceAac mp4 broadcast (adtsAsc payload) (adtsSampleRate (adtsFreqIdx payload)) = some ready) := by
  rw [ensureAacInit] at ensured
  split at ensured
  · rename_i out
    exact .inl ⟨out, (Option.some.inj ensured).symm⟩
  · rename_i first
    split at ensured
    · cases ensured
    · split at ensured
      · cases ensured
      · exact .inr ⟨Bool.eq_false_of_not_eq_true first, ensured⟩

def processAac (mp4 : Mp4Atom) (broadcast : String) (state : MediaState) (pes : PesPacket) : MediaState :=
  match ensureAacInit mp4 broadcast state pes.payload with
  | none => state
  | some ready => (adtsFrames pes.payload).foldl (MediaState.emitAacFrame broadcast (pesDts pes) (pesPts pes)) ready

-- SCTE-35 sections do not come this way, and an unknown stream is dropped.
def processPes (mp4 : Mp4Atom) (broadcast : String) (state : MediaState) (pes : PesPacket) : MediaState :=
  match pes.streamType with
  | .h264 => processH264 mp4 broadcast state pes
  | .aac => processAac mp4 broadcast state pes
  | .h265 => processHevc mp4 broadcast state pes
  | .scte35 => state
  | .unknown _ => state

end Lvqr.Srt

-- The two tracks an SRT connection fills.
namespace Lvqr.Srt

open Cmaf (Mp4Atom)
open Codec (splitAnnexB)
open Ingest (MediaState stampedDuration stamps VIDEO_TRACK AUDIO_TRACK)
open Timeline (Track)
open Ts (PesPacket)

def videoFormat (pes : PesPacket) : Option Ingest.VideoFormat :=
  match pes.streamType with
  | .h264 => some .avc
  | .h265 => some .hevc
  | _ => none

-- The access units of a video packet: one, unless there are parameter sets only.
def videoUnits (pes : PesPacket) : Nat :=
  match videoFormat pes with
  | some format => (format.hasPicture (splitAnnexB pes.payload)).toNat
  | none => 0

def videoReady (mp4 : Mp4Atom) (state : MediaState) (pes : PesPacket) : Bool :=
  match videoFormat pes with
  | some format => state.pictureReady mp4 format (splitAnnexB pes.payload)
  | none => false

def videoSends (mp4 : Mp4Atom) (state : MediaState) (pes : PesPacket) : Nat :=
  match videoFormat pes with
  | some format => (state.sendsPicture mp4 format (splitAnnexB pes.payload)).toNat
  | none => 0

-- Whether the audio init segment is out or the payload's first ADTS header gives one.
def audioReady (mp4 : Mp4Atom) (state : MediaState) (payload : Bytes) : Bool :=
  state.audioInitEmitted || (decide (7 ≤ payload.length) && (isAdtsSync payload &&
    (Cmaf.writeAacInitSegment mp4 ⟨adtsAsc payload, adtsSampleRate (adtsFreqIdx payload)⟩).toOption.isSome))

-- The ADTS frames of an AAC packet.
def audioUnits (pes : PesPacket) : Nat := if pes.streamType = .aac then (adtsFrames pes.payload).length else 0

def audioSends (mp4 : Mp4Atom) (state : MediaState) (pes : PesPacket) : Nat :=
  if audioReady mp4 state pes.payload then audioUnits pes else 0

theorem ensure_aac_init_ready (mp4 : Mp4Atom) (broadcast : String) (state : MediaState) (payload : Bytes) :
    (ensureAacInit mp4 broadcast state payload).isSome = audioReady mp4 state payload := by
  rw [ensureAacInit, audioReady]
  cases state.audioInitEmitted with
  | true => rfl
  | false =>
      rw [if_neg (by decide), Bool.false_or]
      by_cases long : 7 ≤ payload.length
      · rw [if_neg (Nat.not_lt.mpr long), decide_eq_true long, Bool.true_and]
        cases isAdtsSync payload with
        | false => rfl
        | true => rw [if_neg (by decide), Bool.true_and, MediaState.announceAac, Option.isSome_map]
      · rw [if_pos (Nat.lt_of_not_le long), decide_eq_false long, Bool.false_and]
        rfl

theorem ensure_aac_init_adds (mp4 : Mp4Atom) (broadcast : String) (state ready : MediaState) (payload : Bytes)
    (ensured : ensureAacInit mp4 broadcast state payload = some ready) :
    MediaState.Adds broadcast state ready [] [] := by
  obtain ⟨_, rfl⟩ | ⟨_, announced⟩ := ensure_aac_init_cases mp4 broadcast state ready payload ensured
  · exact MediaState.Adds.refl broadcast ready
  · exact MediaState.announce_aac_adds mp4 broadcast state ready _ _ announced

theorem process_aac_adds (mp4 : Mp4Atom) (broadcast : String) (state : MediaState) (pes : PesPacket)
    (aac : pes.streamType = .aac) :
    MediaState.Adds broadcast state (processAac mp4 broadcast state pes) []
      (List.replicate (audioSends mp4 state pes) (pesDts pes)) := by
  rw [processAac, audioSends, audioUnits, if_pos aac, ← ensure_aac_init_ready mp4 broadcast]
  cases ensured : ensureAacInit mp4 broadcast state pes.payload with
  | none => exact MediaState.Adds.refl broadcast state
  | some ready =>
      exact (ensure_aac_init_adds mp4 broadcast state ready pes.payload ensured).trans
        (MediaState.emit_all_aac_adds broadcast _ _ ready _)

theorem process_pes_adds (mp4 : Mp4Atom) (broadcast : String) (state : MediaState) (pes : PesPacket) :
    MediaState.Adds broadcast state (processPes mp4 broadcast state pes)
      (List.replicate (videoSends mp4 state pes) (pesDts pes))
      (List.replicate (audioSends mp4 state pes) (pesDts pes)) := by
  rw [processPes, videoSends, videoFormat]
  cases kind : pes.streamType with
  | h264 =>
      have silent : audioSends mp4 state pes = 0 := by simp [audioSends, audioUnits, kind]
      rw [silent]
      exact state.process_nalus_adds mp4 .avc broadcast _ _ _ _
  | h265 =>
      have silent : audioSends mp4 state pes = 0 := by simp [audioSends, audioUnits, kind]
      rw [silent]
      exact state.process_nalus_adds mp4 .hevc broadcast _ _ _ _
  | aac => exact process_aac_adds mp4 broadcast state pes kind
  | scte35 =>
      have silent : audioSends mp4 state pes = 0 := by simp [audioSends, audioUnits, kind]
      rw [silent]
      exact MediaState.Adds.refl broadcast state
  | unknown byte =>
      have silent : audioSends mp4 state pes = 0 := by simp [audioSends, audioUnits, kind]
      rw [silent]
      exact MediaState.Adds.refl broadcast state

def videoTrack (mp4 : Mp4Atom) (broadcast : String) : Track MediaState PesPacket where
  step := processPes mp4 broadcast
  stamps state := stamps broadcast VIDEO_TRACK state.published
  previous := MediaState.prevVideoDts
  rule := stampedDuration 3000
  sends := videoSends mp4
  time _ := pesDts
  stamps_step state pes := (process_pes_adds mp4 broadcast state pes).video_stamps
  previous_step state pes := (process_pes_adds mp4 broadcast state pes).video_previous

def audioTrack (mp4 : Mp4Atom) (broadcast : String) : Track MediaState PesPacket where
  step := processPes mp4 broadcast
  stamps state := stamps broadcast AUDIO_TRACK state.published
  previous := MediaState.prevAudioDts
  rule := stampedDuration 1024
  sends := audioSends mp4
  time _ := pesDts
  stamps_step state pes := (process_pes_adds mp4 broadcast state pes).audio_stamps
  previous_step state pes := (process_pes_adds mp4 broadcast state pes).audio_previous

end Lvqr.Srt

-- The audio fragments keep the 90 kHz ticks of their PES packet, whatever timescale
-- is announced for the track.
namespace Lvqr.Srt

open Cmaf (Mp4Atom)
open Ingest (MediaState Publication stampedDuration stamps AUDIO_TRACK VIDEO_TRACK)
open Timeline (stampRun)
open Ts (PesPacket)

def announcedScale (broadcast track : String) : Publication → Option Nat
  | .init name label _ timescale _ => if name = broadcast ∧ label = track then some timescale else none
  | .fragment .. => none

-- The timescale of the last init segment of the track.
def announcedTimescale (broadcast track : String) (published : List Publication) : Option Nat :=
  (published.filterMap (announcedScale broadcast track)).getLast?

-- An audio init segment that is out has told the state's timescale, and an ADTS
-- header has given it.
def Announced (broadcast : String) (state : MediaState) : Prop :=
  state.audioInitEmitted = true →
    announcedTimescale broadcast AUDIO_TRACK state.published = some state.audioTimescale ∧
      ∃ freqIdx, state.audioTimescale = adtsSampleRate freqIdx

theorem announced_snoc (broadcast track : String) (published : List Publication) (publication : Publication) :
    announcedTimescale broadcast track (published ++ [publication]) =
      (announcedScale broadcast track publication).or (announcedTimescale broadcast track published) := by
  rw [announcedTimescale, announcedTimescale, List.filterMap_append, List.getLast?_append]
  cases told : announcedScale broadcast track publication <;> simp [told]

theorem announced_video_kept (mp4 : Mp4Atom) (broadcast : String) :
    MediaState.VideoKept mp4 broadcast (Announced broadcast) where
  stores _ _ _ _ held := held
  announces state format segment held _ := by
    intro out
    obtain ⟨told, given⟩ := held out
    refine ⟨?_, given⟩
    show announcedTimescale broadcast AUDIO_TRACK (state.published ++ [_]) = some state.audioTimescale
    rw [announced_snoc, ← told]
    simp [announcedScale, VIDEO_TRACK, AUDIO_TRACK]
  emits state codec dts pts keyframe payload held := by
    intro out
    obtain ⟨told, given⟩ := held out
    refine ⟨?_, given⟩
    show announcedTimescale broadcast AUDIO_TRACK (state.published ++ [_]) = some state.audioTimescale
    rw [announced_snoc, ← told]
    rfl

-- The timescale that holds once the packet is through.
def clockRate (state : MediaState) (pes : PesPacket) : Nat :=
  if state.audioInitEmitted then state.audioTimescale else adtsSampleRate (adtsFreqIdx pes.payload)

theorem ensure_aac_init_announced (mp4 : Mp4Atom) (broadcast : String) (state ready : MediaState) (pes : PesPacket)
    (announced : Announced broadcast state) (ensured : ensureAacInit mp4 broadcast state pes.payload = some ready) :
    Announced broadcast ready ∧ ready.audioInitEmitted = true ∧ ready.audioTimescale = clockRate state pes := by
  rw [clockRate]
  obtain ⟨out, rfl⟩ | ⟨first, told⟩ := ensure_aac_init_cases mp4 broadcast state ready pes.payload ensured
  · exact ⟨announced, out, by rw [if_pos out]⟩
  · obtain ⟨segment, _, rfl⟩ := Option.map_eq_some_iff.mp told
    refine ⟨fun _ => ⟨?_, _, rfl⟩, rfl, by rw [first, if_neg Bool.false_ne_true]⟩
    show announcedTimescale broadcast AUDIO_TRACK (state.published ++ [_]) = _
    rw [announced_snoc]
    simp [announcedScale, AUDIO_TRACK]

theorem emit_aac_announced (broadcast : String) (dts pts : Nat) (state : MediaState) (frame : Bytes)
    (announced : Announced broadcast state) : Announced broadcast (MediaState.emitAacFrame broadcast dts pts state frame) := by
  intro out
  obtain ⟨told, given⟩ := announced out
  refine ⟨?_, given⟩
  show announcedTimescale broadcast AUDIO_TRACK (state.published ++ [_]) = some state.audioTimescale
  rw [announced_snoc, ← told]
  rfl

theorem emit_all_aac_announced (broadcast : String) (dts pts : Nat) (state : MediaState) (frames : List Bytes)
    (announced : Announced broadcast state) :
    let last := frames.foldl (MediaState.emitAacFrame broadcast dts pts) state
    Announced broadcast last ∧ last.audioInitEmitted = state.audioInitEmitted ∧
      last.audioTimescale = state.audioTimescale := by
  induction frames generalizing state with
  | nil => exact ⟨announced, rfl, rfl⟩
  | cons frame frames ih => exact ih _ (emit_aac_announced broadcast dts pts state frame announced)

theorem process_pes_announced (mp4 : Mp4Atom) (broadcast : String) (state : MediaState) (pes : PesPacket)
    (announced : Announced broadcast state) :
    let next := processPes mp4 broadcast state pes
    Announced broadcast next ∧ (0 < audioSends mp4 state pes →
      announcedTimescale broadcast AUDIO_TRACK next.published = some (clockRate state pes) ∧
        ∃ freqIdx, clockRate state pes = adtsSampleRate freqIdx) := by
  have video := announced_video_kept mp4 broadcast
  dsimp only
  rw [processPes, audioSends, audioUnits]
  cases kind : pes.streamType with
  | h264 => exact ⟨MediaState.process_nalus_keeps video .avc state _ _ _ _ announced, by simp⟩
  | h265 => exact ⟨MediaState.process_nalus_keeps video .hevc state _ _ _ _ announced, by simp⟩
  | scte35 | unknown => exact ⟨announced, by simp⟩
  | aac =>
      dsimp only
      rw [processAac, ← ensure_aac_init_ready mp4 broadcast]
      cases ensured : ensureAacInit mp4 broadcast state pes.payload with
      | none => exact ⟨announced, by simp⟩
      | some ready =>
          obtain ⟨readyAnnounced, out, rate⟩ :=
            ensure_aac_init_announced mp4 broadcast state ready pes announced ensured
          obtain ⟨lastAnnounced, lastOut, lastRate⟩ :=
            emit_all_aac_announced broadcast (pesDts pes) (pesPts pes) ready (adtsFrames pes.payload) readyAnnounced
          refine ⟨lastAnnounced, fun _ => ?_⟩
          rw [← rate, ← lastRate]
          exact lastAnnounced (lastOut.trans out)

-- A stamp in ticks of the timescale, up to one of them, for the frame that comes so
-- many frames of 1024 samples after the 90 kHz time.
def OnClock (timescale start90k index : Nat) (stamp : Nat × Nat) : Prop :=
  stamp.1 * 90000 ≤ start90k * timescale + index * 1024 * 90000 + 90000 ∧
    start90k * timescale + index * 1024 * 90000 ≤ stamp.1 * 90000 + 90000 ∧ stamp.2 = 1024

-- Every frame that the packet adds is stamped in the announced timescale.
def FramesOnClock (mp4 : Mp4Atom) (broadcast : String) (state : MediaState) (pes : PesPacket) : Prop :=
  let next := processPes mp4 broadcast state pes
  let added := (stamps broadcast AUDIO_TRACK next.published).drop (stamps broadcast AUDIO_TRACK state.published).length
  ∀ index stamp, added[index]? = some stamp →
    ∃ timescale ∈ announcedTimescale broadcast AUDIO_TRACK next.published, OnClock timescale (pesDts pes) index stamp

-- A packet without frames, or with a single one so near to zero that both clocks
-- show the same, and not after the packet before.
def NearZero (mp4 : Mp4Atom) (state : MediaState) (pes : PesPacket) : Prop :=
  audioUnits pes = 0 ∨ audioReady mp4 state pes.payload = false ∨
    (audioUnits pes = 1 ∧ pesDts pes * 90000 ≤ pesDts pes * clockRate state pes + 90000 ∧
      pesDts pes * clockRate state pes ≤ pesDts pes * 90000 + 90000 ∧
      ∀ prev ∈ state.prevAudioDts, pesDts pes ≤ prev)

theorem audio_sends_zero_iff (mp4 : Mp4Atom) (state : MediaState) (pes : PesPacket) :
    audioSends mp4 state pes = 0 ↔ audioUnits pes = 0 ∨ audioReady mp4 state pes.payload = false := by
  rw [audioSends]
  cases audioReady mp4 state pes.payload <;> simp

theorem adts_sample_rate_apart (freqIdx : UInt8) : adtsSampleRate freqIdx ≤ 88200 ∨ adtsSampleRate freqIdx = 96000 := by
  unfold adtsSampleRate
  split <;> simp

-- The clocks of all rates part within 50 ticks.
theorem near_zero_small (start rate : Nat) (apart : rate ≤ 88200 ∨ rate = 96000)
    (low : start * 90000 ≤ start * rate + 90000) (high : start * rate ≤ start * 90000 + 90000) : start ≤ 50 := by
  rcases apart with slower | rfl
  · have bound := Nat.mul_le_mul_left start slower
    omega
  · omega

theorem stamped_duration_near (prev : Option Nat) (start : Nat) (near : start ≤ 50) :
    stampedDuration 1024 prev start = 1024 ↔ ∀ before ∈ prev, start ≤ before := by
  cases prev with
  | none => simp [stampedDuration]
  | some before =>
      simp only [stampedDuration, Option.mem_some_iff, forall_eq']
      split <;> omega

theorem on_clock_zero_iff (rate start : Nat) (prev : Option Nat) (apart : rate ≤ 88200 ∨ rate = 96000) :
    OnClock rate start 0 (start, stampedDuration 1024 prev start) ↔
      start * 90000 ≤ start * rate + 90000 ∧ start * rate ≤ start * 90000 + 90000 ∧
        ∀ before ∈ prev, start ≤ before := by
  simp only [OnClock, Nat.zero_mul, Nat.add_zero]
  refine and_congr_right fun low => and_congr_right fun high => ?_
  exact stamped_duration_near prev start (near_zero_small start rate apart low high)

-- A second frame with the same start would have to be 1024 samples away.
theorem not_on_clock_one (rate start length : Nat) (apart : rate ≤ 88200 ∨ rate = 96000)
    (low : start * 90000 ≤ start * rate + 90000) (high : start * rate ≤ start * 90000 + 90000) :
    ¬ OnClock rate start 1 (start, length) := by
  rintro ⟨_, late, _⟩
  have small := near_zero_small start rate apart low high
  dsimp only at late
  omega

theorem frames_on_clock_iff (mp4 : Mp4Atom) (broadcast : String) (state : MediaState) (pes : PesPacket)
    (announced : Announced broadcast state) : FramesOnClock mp4 broadcast state pes ↔ NearZero mp4 state pes := by
  obtain ⟨_, told⟩ := process_pes_announced mp4 broadcast state pes announced
  have added := (process_pes_adds mp4 broadcast state pes).audio_stamps
  rw [FramesOnClock, NearZero, ← or_assoc, ← audio_sends_zero_iff mp4]
  rw [added, List.drop_left]
  rcases count : audioSends mp4 state pes with _ | rest
  · simp [stampRun]
  · obtain ⟨scale, freqIdx, given⟩ := told (by omega)
    have apart : clockRate state pes ≤ 88200 ∨ clockRate state pes = 96000 :=
      given ▸ adts_sample_rate_apart freqIdx
    have units : audioUnits pes = rest + 1 := by
      rw [audioSends] at count
      split at count
      · exact count
      · cases count
    rw [scale, units]
    simp only [Option.mem_some_iff, exists_eq_left', Nat.add_eq_zero_iff, one_ne_zero, and_false, false_or]
    rw [List.replicate_succ, stampRun]
    constructor
    · intro held
      obtain ⟨low, high, before⟩ := (on_clock_zero_iff _ _ _ apart).mp (held 0 _ rfl)
      refine ⟨?_, low, high, before⟩
      by_contra more
      obtain ⟨further, rfl⟩ := Nat.exists_eq_succ_of_ne_zero (show rest ≠ 0 by omega)
      exact not_on_clock_one _ _ _ apart low high (held 1 _ rfl)
    · rintro ⟨single, low, high, before⟩ index stamp found
      obtain rfl : rest = 0 := by omega
      cases index with
      | zero =>
          obtain rfl := Option.some.inj found
          exact (on_clock_zero_iff _ _ _ apart).mpr ⟨low, high, before⟩
      | succ index => cases found

-- The stamps are in the announced timescale in the runs whose packets hold one frame
-- each, at a time near zero that never rises, and in no others.
theorem audio_on_clock_iff (mp4 : Mp4Atom) (broadcast : String) (ops : List PesPacket) :
    Machine.AllSteps (FramesOnClock mp4 broadcast) (processPes mp4 broadcast) MediaState.new ops ↔
      Machine.AllSteps (NearZero mp4) (processPes mp4 broadcast) MediaState.new ops := by
  have start : Announced broadcast MediaState.new := by rintro ⟨⟩
  exact Machine.all_steps_iff (fun state pes announced => frames_on_clock_iff mp4 broadcast state pes announced)
    (fun state pes announced _ => (process_pes_announced mp4 broadcast state pes announced).1) _ ops start

-- One frame at 48 kHz, one second in.
def adtsPes : PesPacket := ⟨257, .aac, some 90000, none, [0xFF, 0xF1, 0x4C, 0x80, 0x01, 0x1F, 0xFC, 0xAA]⟩

-- Its start would be 48000, and is 90000.
theorem second_of_audio_off_clock :
    ¬ Machine.AllSteps (FramesOnClock (fun _ => true) "live") (processPes (fun _ => true) "live") MediaState.new
      [adtsPes] := by
  rintro ⟨held, _⟩
  obtain ⟨timescale, told, start, _⟩ := held 0 (90000, 1024) (by decide +kernel)
  have scale : announcedTimescale "live" AUDIO_TRACK
      (processPes (fun _ => true) "live" MediaState.new adtsPes).published = some 48000 := by decide +kernel
  obtain rfl := Option.some.inj (scale.symm.trans told)
  revert start
  decide

end Lvqr.Srt
