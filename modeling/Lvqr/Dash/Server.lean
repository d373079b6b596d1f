import Mathlib.Algebra.Group.Nat.Defs
import Lvqr.Cmaf.Coalescer
import Lvqr.Lib.Table
import Lvqr.Lib.Text

set_option autoImplicit false

-- The DASH egress: what a broadcast's server keeps and the MPD it makes of it. The
-- XML text of an MPD is left to its own renderer.
namespace Lvqr.Dash

inductive MpdType where
  | dynamic
  | static
deriving DecidableEq, Repr

structure SegmentTemplate where
  initialization : String
  media : String
  startNumber : Nat
  duration : Nat
  timescale : Nat
deriving DecidableEq, Repr

structure Representation where
  id : String
  codecs : String
  bandwidthBps : Nat
  width : Option Nat
  height : Option Nat
  audioSamplingRate : Option Nat
deriving DecidableEq, Repr

structure AdaptationSet where
  id : Nat
  mimeType : String
  contentType : String
  lang : Option String
  representations : List Representation
  segmentTemplate : SegmentTemplate
deriving DecidableEq, Repr

structure DashEvent where
  id : Nat
  presentationTime : Nat
  duration : Option Nat
  binaryBase64 : String
deriving DecidableEq, Repr

structure EventStream where
  schemeIdUri : String
  value : Option String
  timescale : Nat
  events : List DashEvent
deriving DecidableEq, Repr

structure Period where
  id : String
  start : String
  eventStreams : List EventStream
  adaptationSets : List AdaptationSet
deriving DecidableEq, Repr

structure Mpd where
  mpdType : MpdType
  profiles : String
  minBufferTime : String
  minimumUpdatePeriod : String
  availabilityStartTimeMillis : Option Nat
  publishTimeMillis : Option Nat
  timeShiftBufferDepthSecs : Option Nat
  utcTimingValueMillis : Option Nat
  periods : List Period
deriving DecidableEq, Repr

def SCTE35_SCHEME_ID : String := "urn:scte:scte35:2014:xml+bin"

def FALLBACK_VIDEO_CODEC : String := "avc1.640020"

def FALLBACK_AUDIO_CODEC : String := "mp4a.40.2"

structure DashConfig where
  minBufferTime : String
  minimumUpdatePeriod : String
  videoBandwidthBps : Nat
  audioBandwidthBps : Nat
  videoTimescale : Nat
  videoSegmentDuration : Nat
  audioTimescale : Nat
  audioSegmentDuration : Nat
  videoWidth : Nat
  videoHeight : Nat
deriving DecidableEq, Repr

def DashConfig.default : DashConfig where
  minBufferTime := "PT2.0S"
  minimumUpdatePeriod := "PT2.0S"
  videoBandwidthBps := 2500000
  audioBandwidthBps := 128000
  videoTimescale := 90000
  videoSegmentDuration := 180000
  audioTimescale := 48000
  audioSegmentDuration := 96000
  videoWidth := 1280
  videoHeight := 720

structure TrackState where
  init : Option Bytes
  codec : Option String
  segments : Table Nat Bytes
  latestSeq : Nat
  anySegment : Bool

namespace TrackState

def new : TrackState := ⟨none, none, ∅, 0, false⟩

def has (track : TrackState) : Bool := track.init.isSome || track.anySegment

def pushInit (track : TrackState) (codec : Option String) (bytes : Bytes) : TrackState :=
  { track with codec := codec, init := some bytes }

def pushSegment (track : TrackState) (seq : Nat) (bytes : Bytes) : TrackState :=
  { track with
    latestSeq := if track.anySegment = false ∨ track.latestSeq < seq then seq else track.latestSeq
    anySegment := true
    segments := track.segments.insert seq (Cmaf.prependCmafChunkStyp bytes) }

end TrackState

-- Zero stands for a start that is not captured yet.
structure DashServer where
  config : DashConfig
  video : TrackState
  audio : TrackState
  eventStreams : List EventStream
  finalized : Bool
  availabilityStartMillis : Nat

-- The codec string of an init segment, if its sample entry has one.
structure CodecStrings where
  video : Bytes → Option String
  audio : Bytes → Option String

namespace DashServer

def new (config : DashConfig) : DashServer := ⟨config, .new, .new, [], false, 0⟩

def ensureStarted (server : DashServer) (now : Nat) : DashServer :=
  if server.availabilityStartMillis ≠ 0 then server else { server with availabilityStartMillis := now }

def pushEvent (server : DashServer) (event : DashEvent) : DashServer :=
  let push (events : List DashEvent) : List DashEvent :=
    if events.any (·.id = event.id) then events.replaceF fun old => if old.id = event.id then some event else none
    else events ++ [event]
  match server.eventStreams with
  | [] => { server with eventStreams := [⟨SCTE35_SCHEME_ID, none, 90000, push []⟩] }
  | stream :: streams => { server with eventStreams := { stream with events := push stream.events } :: streams }

def pushVideoInit (codecs : CodecStrings) (server : DashServer) (bytes : Bytes) (now : Nat) : DashServer :=
  let started := server.ensureStarted now
  { started with video := started.video.pushInit (codecs.video bytes) bytes }

def pushAudioInit (codecs : CodecStrings) (server : DashServer) (bytes : Bytes) (now : Nat) : DashServer :=
  let started := server.ensureStarted now
  { started with audio := started.audio.pushInit (codecs.audio bytes) bytes }

def pushVideoSegment (server : DashServer) (seq : Nat) (bytes : Bytes) (now : Nat) : DashServer :=
  let started := server.ensureStarted now
  { started with video := started.video.pushSegment seq bytes }

def pushAudioSegment (server : DashServer) (seq : Nat) (bytes : Bytes) (now : Nat) : DashServer :=
  let started := server.ensureStarted now
  { started with audio := started.audio.pushSegment seq bytes }

def finalize (server : DashServer) : DashServer := { server with finalized := true }

def videoSegment (server : DashServer) (seq : Nat) : Option Bytes := server.video.segments.lookup seq

def audioSegment (server : DashServer) (seq : Nat) : Option Bytes := server.audio.segments.lookup seq

def videoSet (server : DashServer) : AdaptationSet where
  id := 0
  mimeType := "video/mp4"
  contentType := "video"
  lang := none
  representations :=
    [{ id := "video"
       codecs := server.video.codec.getD FALLBACK_VIDEO_CODEC
       bandwidthBps := server.config.videoBandwidthBps
       width := some server.config.videoWidth
       height := some server.config.videoHeight
       audioSamplingRate := none }]
  segmentTemplate :=
    { initialization := "init-video.m4s"
      media := "seg-video-$Number$.m4s"
      startNumber := 1
      duration := server.config.videoSegmentDuration
      timescale := server.config.videoTimescale }

def audioSet (server : DashServer) : AdaptationSet where
  id := 1
  mimeType := "audio/mp4"
  contentType := "audio"
  lang := none
  representations :=
    [{ id := "audio"
       codecs := server.audio.codec.getD FALLBACK_AUDIO_CODEC
       bandwidthBps := server.config.audioBandwidthBps
       width := none
       height := none
       audioSamplingRate := some server.config.audioTimescale }]
  segmentTemplate :=
    { initialization := "init-audio.m4s"
      media := "seg-audio-$Number$.m4s"
      startNumber := 1
      duration := server.config.audioSegmentDuration
      timescale := server.config.audioTimescale }

-- Without video there is no manifest.
def renderManifest (server : DashServer) (now : Nat) : Option Mpd :=
  if server.video.has then
    let live (value : Nat) : Option Nat := if server.finalized then none else some value
    some {
      mpdType := if server.finalized then .static else .dynamic
      profiles :=
        if server.finalized then "urn:mpeg:dash:profile:isoff-on-demand:2011"
        else "urn:mpeg:dash:profile:isoff-live:2011"
      minBufferTime := server.config.minBufferTime
      minimumUpdatePeriod := if server.finalized then "" else server.config.minimumUpdatePeriod
      availabilityStartTimeMillis :=
        if server.availabilityStartMillis = 0 then none else live server.availabilityStartMillis
      publishTimeMillis := live now
      timeShiftBufferDepthSecs := none
      utcTimingValueMillis := live now
      periods :=
        [{ id := "0"
           start := "PT0S"
           eventStreams := server.eventStreams
           adaptationSets := server.videoSet :: if server.audio.has then [server.audioSet] else [] }]
    }
  else none

def parseSeq (uri front : List Char) : Option Nat :=
  (Text.stripPrefix front uri).bind fun rest =>
    (Text.stripSuffix ".m4s".toList rest).bind (Text.parseUnsigned (2 ^ 64))

-- The numbered media requests; nothing else is looked up by number.
def serveSegment (server : DashServer) (uri : List Char) : Option Bytes :=
  match parseSeq uri "seg-video-".toList with
  | some seq => server.videoSegment seq
  | none =>
      match parseSeq uri "seg-audio-".toList with
      | some seq => server.audioSegment seq
      | none => none

theorem render_manifest_dynamic_iff (server : DashServer) (now : Nat) :
    (∀ mpd ∈ server.renderManifest now, mpd.mpdType = .dynamic) ↔
      (server.video.has = true → server.finalized = false) := by
  rw [renderManifest]
  cases server.video.has <;> cases server.finalized <;> simp

@[simp] theorem ensure_started_finalized (server : DashServer) (now : Nat) :
    (server.ensureStarted now).finalized = server.finalized := by
  rw [ensureStarted]
  split <;> rfl

end DashServer

structure MultiDashServer where
  config : DashConfig
  broadcasts : Table String DashServer

namespace MultiDashServer

def new (config : DashConfig) : MultiDashServer := ⟨config, ∅⟩

def get (multi : MultiDashServer) (broadcast : String) : Option DashServer := multi.broadcasts.lookup broadcast

def ensure (multi : MultiDashServer) (broadcast : String) : MultiDashServer :=
  match multi.get broadcast with
  | some _ => multi
  | none => { multi with broadcasts := multi.broadcasts.insert broadcast (.new multi.config) }

-- A handle is a clone of the server, so what is pushed through it is in the entry.
def update (multi : MultiDashServer) (broadcast : String) (change : DashServer → DashServer) : MultiDashServer :=
  { multi with broadcasts := multi.broadcasts.modify broadcast change }

def pushEvent (multi : MultiDashServer) (broadcast : String) (event : DashEvent) : MultiDashServer :=
  (multi.ensure broadcast).update broadcast fun server => server.pushEvent event

def finalizeBroadcast (multi : MultiDashServer) (broadcast : String) : MultiDashServer :=
  multi.update broadcast DashServer.finalize

theorem get_ensure (multi : MultiDashServer) (broadcast other : String) :
    (multi.ensure broadcast).get other =
      if other = broadcast then some ((multi.get broadcast).getD (.new multi.config)) else multi.get other := by
  cases found : multi.get broadcast with
  | some server =>
      simp only [ensure, found, Option.getD_some]
      split
      · rename_i same
        rw [same, found]
      · rfl
  | none =>
      simp only [ensure, found, Option.getD_none]
      exact Table.lookup_insert_eq _ _ _ _

theorem get_update (multi : MultiDashServer) (broadcast other : String) (change : DashServer → DashServer) :
    (multi.update broadcast change).get other =
      if other = broadcast then (multi.get broadcast).map change else multi.get other :=
  Table.lookup_modify multi.broadcasts broadcast other change

end MultiDashServer

end Lvqr.Dash
