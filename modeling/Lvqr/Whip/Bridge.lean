import Lvqr.Codec.AnnexB
import Lvqr.Ingest.MediaState
import Lvqr.Lib.Table

set_option autoImplicit false

-- One WHIP session and the bridge behind it: the WebRTC stack hands over whole
-- access units, video as Annex B and audio as Opus frames.
namespace Lvqr.Whip

open Cmaf (Mp4Atom InitSegment)
open Codec
open Ingest (Publication)

inductive MediaCodec where
  | h264
  | h265
  | aac
  | opus
deriving DecidableEq, Repr

structure IngestSample where
  dts90k : Nat
  keyframe : Bool
  codec : MediaCodec
  annexB : Bytes
deriving DecidableEq, Repr

structure IngestAudioSample where
  dts48k : Nat
  duration48k : Nat
  payload : Bytes
deriving DecidableEq, Repr

-- The sinks' own state feeds nothing published; the video init segment is emitted
-- with the broadcast.
structure BroadcastState where
  videoSeq : Nat
  audioSeq : Nat
  audioSink : Bool
deriving DecidableEq, Repr

structure WhipMoqBridge where
  streams : Table String BroadcastState
  published : List Publication

-- What is outside the repository: mp4-atom, the h264-reader crate, and the origin's
-- answers to `create_broadcast` and `create_track`.
structure Outside where
  mp4 : Mp4Atom
  avcDims : Bytes → Option (Nat × Nat)
  allowed : Bool

def annexBToAvcc (annexB : Bytes) : Bytes := lengthPrefixed (splitAnnexB annexB)

structure HevcParamSets where
  vps : Option Bytes
  sps : Option Bytes
  pps : Option Bytes
deriving DecidableEq, Repr

-- The first of each kind counts.
def takeHevcParam (out : HevcParamSets) (nal : Bytes) : HevcParamSets :=
  if hevcNalType nal = 32 then { out with vps := out.vps.or (some nal) }
  else if hevcNalType nal = 33 then { out with sps := out.sps.or (some nal) }
  else if hevcNalType nal = 34 then { out with pps := out.pps.or (some nal) }
  else out

def extractHevcParams (annexB : Bytes) : HevcParamSets := (splitAnnexB annexB).foldl takeHevcParam ⟨none, none, none⟩

def extractSpsPps (annexB : Bytes) : Option Bytes × Option Bytes :=
  let nals := splitAnnexB annexB
  (nals.find? (avcNalType · = 7), nals.find? (avcNalType · = 8))

def buildAvcInit (outside : Outside) (annexB : Bytes) : Option (String × InitSegment) :=
  match extractSpsPps annexB with
  | (some sps, some pps) =>
      let (width, height) := (outside.avcDims sps).getD (0, 0)
      match Cmaf.writeAvcInitSegment outside.mp4 ⟨sps, pps, width, height, 90000⟩ with
      | .error _ => none
      | .ok segment => some ("avc1", segment)
  | _ => none

def buildHevcInit (outside : Outside) (annexB : Bytes) : Option (String × InitSegment) :=
  match extractHevcParams annexB with
  | ⟨some vps, some sps, some pps⟩ =>
      match parseSps sps with
      | .error _ => none
      | .ok spsInfo =>
          match Cmaf.writeHevcInitSegment outside.mp4 ⟨vps, sps, pps, spsInfo, 90000⟩ with
          | .error _ => none
          | .ok segment => some ("hvc1", segment)
  | _ => none

def buildInit (outside : Outside) (codec : MediaCodec) (annexB : Bytes) : Option (String × InitSegment) :=
  match codec with
  | .h264 => buildAvcInit outside annexB
  | .h265 => buildHevcInit outside annexB
  | .aac | .opus => none

namespace WhipMoqBridge

def new : WhipMoqBridge := ⟨∅, []⟩

def publish (bridge : WhipMoqBridge) (publication : Publication) : WhipMoqBridge :=
  { bridge with published := bridge.published ++ [publication] }

-- `none` where the caller may not push the sample.
def ensureInitialized (outside : Outside) (bridge : WhipMoqBridge) (broadcast : String) (sample : IngestSample) :
    Option WhipMoqBridge :=
  if (bridge.streams.lookup broadcast).isSome then some bridge
  else if sample.keyframe = false then none
  else
    match buildInit outside sample.codec sample.annexB with
    | none => none
    | some (fourcc, segment) =>
        if outside.allowed then
          let published := bridge.publish (.init broadcast "0.mp4" fourcc 90000 segment)
          some { published with streams := bridge.streams.insert broadcast ⟨0, 0, false⟩ }
        else none

theorem ensure_initialized_cases (outside : Outside) (bridge ready : WhipMoqBridge) (broadcast : String)
    (sample : IngestSample) (ensured : bridge.ensureInitialized outside broadcast sample = some ready) :
    (ready = bridge ∧ (bridge.streams.lookup broadcast).isSome) ∨
      ∃ fourcc segment, buildInit outside sample.codec sample.annexB = some (fourcc, segment) ∧
        ready = { bridge.publish (.init broadcast "0.mp4" fourcc 90000 segment) with
          streams := bridge.streams.insert broadcast ⟨0, 0, false⟩ } := by
  rw [ensureInitialized] at ensured
  split at ensured
  · rename_i present
    exact .inl ⟨(Option.some.inj ensured).symm, present⟩
  · split at ensured
    · cases ensured
    · split at ensured
      · cases ensured
      · rename_i fourcc segment built
        split at ensured
        · exact .inr ⟨fourcc, segment, built, (Option.some.inj ensured).symm⟩
        · cases ensured

def pushSample (bridge : WhipMoqBridge) (broadcast : String) (sample : IngestSample) : WhipMoqBridge :=
  let avcc := annexBToAvcc sample.annexB
  if avcc.isEmpty then bridge
  else
    match bridge.streams.lookup broadcast with
    | none => bridge
    | some state =>
        let seq := state.videoSeq + 1
        let fourcc := if sample.codec = .h265 then "hev1" else "avc1"
        { bridge with streams := bridge.streams.insert broadcast { state with videoSeq := seq } }.publish
          (.fragment broadcast "0.mp4" fourcc 90000 {
            trackId := "0.mp4"
            groupId := seq
            dts := sample.dts90k
            pts := sample.dts90k
            duration := 3000
            flags := .ofKeyframe sample.keyframe
            payload := avcc
          })

def onSample (outside : Outside) (bridge : WhipMoqBridge) (broadcast : String) (sample : IngestSample) :
    WhipMoqBridge :=
  if sample.annexB.isEmpty then bridge
  else
    match bridge.ensureInitialized outside broadcast sample with
    | none => bridge
    | some ready => ready.pushSample broadcast sample

def OPUS_INIT : Cmaf.OpusInitParams := ⟨2, 0, 48000, 48000⟩

def ensureAudioInitialized (outside : Outside) (bridge : WhipMoqBridge) (broadcast : String) : Option WhipMoqBridge :=
  match bridge.streams.lookup broadcast with
  | none => none
  | some state =>
      if state.audioSink then some bridge
      else if outside.allowed then
        match Cmaf.writeOpusInitSegment outside.mp4 OPUS_INIT with
        | .error _ => none
        | .ok segment =>
            let published := bridge.publish (.init broadcast "1.mp4" "Opus" 48000 segment)
            some { published with streams := bridge.streams.insert broadcast { state with audioSink := true } }
      else none

theorem ensure_audio_initialized_cases (outside : Outside) (bridge ready : WhipMoqBridge) (broadcast : String)
    (ensured : bridge.ensureAudioInitialized outside broadcast = some ready) :
    ∃ state, bridge.streams.lookup broadcast = some state ∧
      ((state.audioSink = true ∧ ready = bridge) ∨
        ∃ segment, Cmaf.writeOpusInitSegment outside.mp4 OPUS_INIT = .ok segment ∧
          ready = { bridge.publish (.init broadcast "1.mp4" "Opus" 48000 segment) with
            streams := bridge.streams.insert broadcast { state with audioSink := true } }) := by
  rw [ensureAudioInitialized] at ensured
  split at ensured
  · cases ensured
  · rename_i state found
    refine ⟨state, found, ?_⟩
    split at ensured
    · rename_i sink
      exact .inl ⟨sink, (Option.some.inj ensured).symm⟩
    · split at ensured
      · split at ensured
        · cases ensured
        · rename_i segment ok
          exact .inr ⟨segment, ok, (Option.some.inj ensured).symm⟩
      · cases ensured

def pushAudioSample (bridge : WhipMoqBridge) (broadcast : String) (sample : IngestAudioSample) : WhipMoqBridge :=
  match bridge.streams.lookup broadcast with
  | none => bridge
  | some state =>
      if state.audioSink = false then bridge
      else
        let seq := state.audioSeq + 1
        { bridge with streams := bridge.streams.insert broadcast { state with audioSeq := seq } }.publish
          (.fragment broadcast "1.mp4" "Opus" 48000 {
            trackId := "1.mp4"
            groupId := seq
            dts := sample.dts48k
            pts := sample.dts48k
            duration := sample.duration48k
            flags := .KEYFRAME
            payload := sample.payload
          })

def onAudioSample (outside : Outside) (bridge : WhipMoqBridge) (broadcast : String) (sample : IngestAudioSample) :
    WhipMoqBridge :=
  if sample.payload.isEmpty then bridge
  else
    match bridge.ensureAudioInitialized outside broadcast with
    | none => bridge
    | some ready => ready.pushAudioSample broadcast sample

def onDisconnect (bridge : WhipMoqBridge) (broadcast : String) : WhipMoqBridge :=
  { bridge with streams := bridge.streams.erase broadcast }

-- What the sessions of all broadcasts call on the bridge.
inductive Call where
  | sample (outside : Outside) (broadcast : String) (sample : IngestSample)
  | audioSample (outside : Outside) (broadcast : String) (sample : IngestAudioSample)
  | disconnect (broadcast : String)

def apply (bridge : WhipMoqBridge) : Call → WhipMoqBridge
  | .sample outside broadcast sample => bridge.onSample outside broadcast sample
  | .audioSample outside broadcast sample => bridge.onAudioSample outside broadcast sample
  | .disconnect broadcast => bridge.onDisconnect broadcast

end WhipMoqBridge

-- The poll loop of one session; `time` is the media time in the track's clock.
structure MediaData where
  codec : MediaCodec
  time : Nat
  keyframe : Bool
  data : Bytes
deriving DecidableEq, Repr

structure IngestCtx where
  dtsBase90k : Option Nat
  dtsBase48k : Option Nat
  bridge : WhipMoqBridge

def DEFAULT_OPUS_FRAME_TICKS : Nat := 960

def forwardVideoSample (outside : Outside) (broadcast : String) (ctx : IngestCtx) (data : MediaData) : IngestCtx :=
  if data.data.isEmpty then ctx
  else if data.codec ≠ .h264 ∧ data.codec ≠ .h265 then ctx
  else
    let base := ctx.dtsBase90k.getD data.time
    { ctx with
      dtsBase90k := some base
      bridge := ctx.bridge.onSample outside broadcast ⟨data.time - base, data.keyframe, data.codec, data.data⟩ }

def forwardAudioSample (outside : Outside) (broadcast : String) (ctx : IngestCtx) (data : MediaData) : IngestCtx :=
  if data.data.isEmpty then ctx
  else if data.codec ≠ .opus then ctx
  else
    let base := ctx.dtsBase48k.getD data.time
    { ctx with
      dtsBase48k := some base
      bridge := ctx.bridge.onAudioSample outside broadcast ⟨data.time - base, DEFAULT_OPUS_FRAME_TICKS, data.data⟩ }

-- What the WebRTC stack reports on the session's two media sections.
inductive MediaEvent where
  | video (outside : Outside) (data : MediaData)
  | audio (outside : Outside) (data : MediaData)

def handleEvent (broadcast : String) (ctx : IngestCtx) : MediaEvent → IngestCtx
  | .video outside data => forwardVideoSample outside broadcast ctx data
  | .audio outside data => forwardAudioSample outside broadcast ctx data

end Lvqr.Whip
