import Lvqr.Ingest.Stamps
import Lvqr.Whip.Bridge

set_option autoImplicit false

-- The two tracks a WHIP session fills.
namespace Lvqr.Whip

open Codec (splitAnnexB)
open Ingest (Publication stamps VIDEO_TRACK AUDIO_TRACK)
open Timeline (Track)

variable (broadcast : String)

-- The access units of an event: one, if there is anything in it.
def videoUnits : MediaEvent → Nat
  | .video _ data => if (data.codec = .h264 ∨ data.codec = .h265) ∧ splitAnnexB data.data ≠ [] then 1 else 0
  | .audio .. => 0

def audioUnits : MediaEvent → Nat
  | .video .. => 0
  | .audio _ data => if data.codec = .opus ∧ data.data ≠ [] then 1 else 0

-- The broadcast is there, or this keyframe brings it up.
def videoReady (bridge : WhipMoqBridge) (outside : Outside) (keyframe : Bool) (codec : MediaCodec) (annexB : Bytes) :
    Bool :=
  (bridge.streams.lookup broadcast).isSome || (keyframe && (buildInit outside codec annexB).isSome && outside.allowed)

-- The broadcast is there, and its audio sink is or can be.
def audioReady (bridge : WhipMoqBridge) (outside : Outside) : Bool :=
  match bridge.streams.lookup broadcast with
  | none => false
  | some state =>
      state.audioSink || (outside.allowed && (Cmaf.writeOpusInitSegment outside.mp4 WhipMoqBridge.OPUS_INIT).toOption.isSome)

def IngestCtx.videoReady (ctx : IngestCtx) : MediaEvent → Bool
  | .video outside data => Whip.videoReady broadcast ctx.bridge outside data.keyframe data.codec data.data
  | .audio .. => false

def IngestCtx.audioReady (ctx : IngestCtx) : MediaEvent → Bool
  | .video .. => false
  | .audio outside _ => Whip.audioReady broadcast ctx.bridge outside

def IngestCtx.videoTime (ctx : IngestCtx) : MediaEvent → Nat
  | .video _ data => data.time - ctx.dtsBase90k.getD data.time
  | .audio .. => 0

def IngestCtx.audioTime (ctx : IngestCtx) : MediaEvent → Nat
  | .video .. => 0
  | .audio _ data => data.time - ctx.dtsBase48k.getD data.time

theorem stamps_snoc (track : String) (published : List Publication) (publication : Publication) :
    stamps broadcast track (published ++ [publication]) =
      stamps broadcast track published ++ (publication.stamp broadcast track).toList := by
  rw [stamps, List.filterMap_append, ← stamps]
  cases kept : publication.stamp broadcast track <;> simp [kept]

namespace WhipMoqBridge

theorem ensure_initialized_ready (outside : Outside) (bridge : WhipMoqBridge) (sample : IngestSample) :
    (bridge.ensureInitialized outside broadcast sample).isSome =
      videoReady broadcast bridge outside sample.keyframe sample.codec sample.annexB := by
  rw [ensureInitialized, videoReady]
  cases (bridge.streams.lookup broadcast).isSome with
  | true => rfl
  | false =>
      cases sample.keyframe with
      | false => rfl
      | true =>
          cases built : buildInit outside sample.codec sample.annexB with
          | none => simp
          | some pair => cases outside.allowed <;> simp

theorem ensure_initialized_stamps (outside : Outside) (bridge ready : WhipMoqBridge) (track : String)
    (sample : IngestSample) (ensured : bridge.ensureInitialized outside broadcast sample = some ready) :
    stamps broadcast track ready.published = stamps broadcast track bridge.published ∧
      (ready.streams.lookup broadcast).isSome := by
  obtain ⟨rfl, present⟩ | ⟨fourcc, segment, _, rfl⟩ :=
    ensure_initialized_cases outside bridge ready broadcast sample ensured
  · exact ⟨rfl, present⟩
  · exact ⟨(stamps_snoc broadcast track _ _).trans (List.append_nil _), by simp⟩

theorem push_sample_stamps (bridge : WhipMoqBridge) (track : String) (sample : IngestSample)
    (present : (bridge.streams.lookup broadcast).isSome) :
    stamps broadcast track (bridge.pushSample broadcast sample).published =
      stamps broadcast track bridge.published ++
        if track = VIDEO_TRACK ∧ splitAnnexB sample.annexB ≠ [] then [(sample.dts90k, 3000)] else [] := by
  obtain ⟨state, found⟩ := Option.isSome_iff_exists.mp present
  rw [pushSample, found]
  by_cases nothing : splitAnnexB sample.annexB = []
  · simp [annexBToAvcc, nothing, Codec.lengthPrefixed]
  · have payload : annexBToAvcc sample.annexB ≠ [] := (Ingest.length_prefixed_eq_nil _).not.mpr nothing
    have kept := List.isEmpty_eq_false_iff.mpr payload
    simp only [kept]
    rw [if_neg (by decide), publish, stamps_snoc, Publication.stamp]
    by_cases here : track = VIDEO_TRACK
    · simp [here, nothing, VIDEO_TRACK]
    · have other : ¬ "0.mp4" = track := fun same => here same.symm
      simp [here, other]

theorem on_sample_stamps (outside : Outside) (bridge : WhipMoqBridge) (track : String) (sample : IngestSample) :
    stamps broadcast track (bridge.onSample outside broadcast sample).published =
      stamps broadcast track bridge.published ++
        if videoReady broadcast bridge outside sample.keyframe sample.codec sample.annexB = true ∧
          track = VIDEO_TRACK ∧ splitAnnexB sample.annexB ≠ [] then [(sample.dts90k, 3000)] else [] := by
  rw [onSample, ← ensure_initialized_ready]
  by_cases nothing : sample.annexB = []
  · simp [nothing, splitAnnexB, Codec.splitFrom]
  · rw [if_neg (by simpa using nothing)]
    cases ensured : bridge.ensureInitialized outside broadcast sample with
    | none => simp
    | some ready =>
        obtain ⟨same, present⟩ := ensure_initialized_stamps broadcast outside bridge ready track sample ensured
        simp only [Option.isSome_some, true_and]
        rw [push_sample_stamps broadcast ready track sample present, same]

theorem ensure_audio_initialized_ready (outside : Outside) (bridge : WhipMoqBridge) :
    (bridge.ensureAudioInitialized outside broadcast).isSome = audioReady broadcast bridge outside := by
  rw [ensureAudioInitialized, audioReady]
  cases bridge.streams.lookup broadcast with
  | none => rfl
  | some state =>
      dsimp only
      cases state.audioSink with
      | true => rfl
      | false =>
          cases allowed : outside.allowed with
          | false => rfl
          | true => cases Cmaf.writeOpusInitSegment outside.mp4 OPUS_INIT <;> rfl

theorem ensure_audio_initialized_stamps (outside : Outside) (bridge ready : WhipMoqBridge) (track : String)
    (ensured : bridge.ensureAudioInitialized outside broadcast = some ready) :
    stamps broadcast track ready.published = stamps broadcast track bridge.published ∧
      ∃ state, ready.streams.lookup broadcast = some state ∧ state.audioSink = true := by
  obtain ⟨state, found, ⟨sink, rfl⟩ | ⟨segment, _, rfl⟩⟩ :=
    ensure_audio_initialized_cases outside bridge ready broadcast ensured
  · exact ⟨rfl, state, found, sink⟩
  · refine ⟨?_, { state with audioSink := true }, by simp, rfl⟩
    exact (stamps_snoc broadcast track _ _).trans (List.append_nil _)

theorem on_audio_sample_stamps (outside : Outside) (bridge : WhipMoqBridge) (track : String)
    (sample : IngestAudioSample) :
    stamps broadcast track (bridge.onAudioSample outside broadcast sample).published =
      stamps broadcast track bridge.published ++
        if audioReady broadcast bridge outside = true ∧ track = AUDIO_TRACK ∧ sample.payload ≠ [] then
          [(sample.dts48k, sample.duration48k)]
        else [] := by
  rw [onAudioSample, ← ensure_audio_initialized_ready]
  by_cases nothing : sample.payload = []
  · simp [nothing]
  · rw [if_neg (by simpa using nothing)]
    cases ensured : bridge.ensureAudioInitialized outside broadcast with
    | none => simp
    | some ready =>
        obtain ⟨same, state, found, sink⟩ :=
          ensure_audio_initialized_stamps broadcast outside bridge ready track ensured
        simp only [pushAudioSample, found, sink]
        rw [if_neg (by decide), publish, stamps_snoc, same, Publication.stamp]
        by_cases here : track = AUDIO_TRACK
        · simp [here, nothing, AUDIO_TRACK]
        · have other : ¬ "1.mp4" = track := fun same => here same.symm
          simp [here, other]

end WhipMoqBridge

namespace IngestCtx

variable (ctx : IngestCtx) (event : MediaEvent)

def videoSends : Nat := if ctx.videoReady broadcast event then videoUnits event else 0

def audioSends : Nat := if ctx.audioReady broadcast event then audioUnits event else 0

theorem video_stamps_step : stamps broadcast VIDEO_TRACK (handleEvent broadcast ctx event).bridge.published =
    stamps broadcast VIDEO_TRACK ctx.bridge.published ++
      List.replicate (ctx.videoSends broadcast event) (ctx.videoTime event, 3000) := by
  cases event with
  | audio outside data =>
      rw [handleEvent, forwardAudioSample, videoSends, videoUnits, ite_self, List.replicate_zero, List.append_nil]
      split
      · rfl
      · split
        · rfl
        · rw [WhipMoqBridge.on_audio_sample_stamps]
          simp [VIDEO_TRACK, AUDIO_TRACK]
  | video outside data =>
      rw [handleEvent, forwardVideoSample, videoSends, videoUnits]
      by_cases nothing : data.data = []
      · simp [nothing, splitAnnexB, Codec.splitFrom]
      · rw [if_neg (by simpa using nothing)]
        by_cases video : data.codec = .h264 ∨ data.codec = .h265
        · rw [if_neg (by tauto)]
          dsimp only
          rw [WhipMoqBridge.on_sample_stamps]
          by_cases ready : ctx.videoReady broadcast (.video outside data) = true
          · have accepted : Whip.videoReady broadcast ctx.bridge outside data.keyframe data.codec data.data = true := ready
            by_cases units : splitAnnexB data.data = []
            · simp [units]
            · simp [ready, accepted, video, units, videoTime]
          · have refused : ¬ Whip.videoReady broadcast ctx.bridge outside data.keyframe data.codec data.data = true := ready
            simp [ready, refused]
        · rw [if_pos (by tauto)]
          simp [video]

theorem audio_stamps_step : stamps broadcast AUDIO_TRACK (handleEvent broadcast ctx event).bridge.published =
    stamps broadcast AUDIO_TRACK ctx.bridge.published ++
      List.replicate (ctx.audioSends broadcast event) (ctx.audioTime event, DEFAULT_OPUS_FRAME_TICKS) := by
  cases event with
  | video outside data =>
      rw [handleEvent, forwardVideoSample, audioSends, audioUnits, ite_self, List.replicate_zero, List.append_nil]
      split
      · rfl
      · split
        · rfl
        · rw [WhipMoqBridge.on_sample_stamps]
          simp [VIDEO_TRACK, AUDIO_TRACK]
  | audio outside data =>
      rw [handleEvent, forwardAudioSample, audioSends, audioUnits]
      by_cases nothing : data.data = []
      · simp [nothing]
      · rw [if_neg (by simpa using nothing)]
        by_cases opus : data.codec = .opus
        · rw [if_neg (by simpa using opus)]
          dsimp only
          rw [WhipMoqBridge.on_audio_sample_stamps]
          by_cases ready : ctx.audioReady broadcast (.audio outside data) = true
          · have accepted : Whip.audioReady broadcast ctx.bridge outside = true := ready
            simp [ready, accepted, opus, nothing, audioTime]
          · have refused : ¬ Whip.audioReady broadcast ctx.bridge outside = true := ready
            simp [ready, refused]
        · rw [if_pos opus]
          simp [opus]

end IngestCtx

def videoTrack : Track IngestCtx MediaEvent :=
  Track.ofConstant 3000 (handleEvent broadcast) (fun ctx => stamps broadcast VIDEO_TRACK ctx.bridge.published)
    (IngestCtx.videoSends broadcast) IngestCtx.videoTime (IngestCtx.video_stamps_step broadcast)

def audioTrack : Track IngestCtx MediaEvent :=
  Track.ofConstant DEFAULT_OPUS_FRAME_TICKS (handleEvent broadcast)
    (fun ctx => stamps broadcast AUDIO_TRACK ctx.bridge.published) (IngestCtx.audioSends broadcast) IngestCtx.audioTime
    (IngestCtx.audio_stamps_step broadcast)

end Lvqr.Whip
