import Mathlib.Algebra.Group.Int.Defs
import Mathlib.Algebra.Group.Nat.Defs
import Lvqr.Events
import Lvqr.Fragment.Broadcaster
import Lvqr.Lib.Table

set_option autoImplicit false

namespace Lvqr.Rtmp

-- What the FLV parsers make of a tag body. An init segment stands for the codec
-- configuration it is built from.
inductive FlvVideoTag where
  | sequenceHeader (init : Bytes)
  | nalu (keyframe : Bool) (cts : Int) (data : Bytes)
  | endOfSequence
  | unknown
deriving DecidableEq, Repr

inductive FlvAudioTag where
  | sequenceHeader (sampleRate : Nat) (init : Bytes)
  | rawAac (data : Bytes)
  | unknown
deriving DecidableEq, Repr

-- Configuration and init segment of a track are always set together.
structure ActiveStream where
  videoInit : Option Bytes
  audioConfig : Option (Nat × Bytes)
  videoSeq : Nat
  audioSeq : Nat
  lastVideoTs : Option Nat
deriving DecidableEq, Repr

def ActiveStream.new : ActiveStream := ⟨none, none, 0, 0, none⟩

abbrev RegistryKey := String × String

structure RtmpMoqBridge where
  streams : Table String ActiveStream
  registry : Table RegistryKey FragmentMeta
  events : List RelayEvent
  published : List (String × Media.Fragment)

namespace RtmpMoqBridge

def new : RtmpMoqBridge := ⟨∅, ∅, [], []⟩

def getOrCreate (registry : Table RegistryKey FragmentMeta) (key : RegistryKey) (codec : String) (timescale : Nat) :
    Table RegistryKey FragmentMeta :=
  match registry.lookup key with
  | some _ => registry
  | none => registry.insert key (FragmentMeta.new codec timescale)

def publishInit (bridge : RtmpMoqBridge) (broadcast track codec : String) (timescale : Nat) (init : Bytes) :
    RtmpMoqBridge :=
  { bridge with
    registry := Table.modify (broadcast, track) (fun entry => { entry with initSegment := some init })
      (getOrCreate bridge.registry (broadcast, track) codec timescale) }

def publishFragment (bridge : RtmpMoqBridge) (broadcast track codec : String) (timescale : Nat)
    (fragment : Media.Fragment) : RtmpMoqBridge :=
  { bridge with
    registry := getOrCreate bridge.registry (broadcast, track) codec timescale
    published := bridge.published ++ [(broadcast, fragment)] }

-- `allowed` is the origin's answer to `create_broadcast` and `create_track`.
def onPublish (bridge : RtmpMoqBridge) (stream : String) (allowed : Bool) : RtmpMoqBridge :=
  if allowed then
    { bridge with
      streams := bridge.streams.insert stream ActiveStream.new
      events := bridge.events ++ [.broadcastStarted stream] }
  else bridge

def onUnpublish (bridge : RtmpMoqBridge) (stream : String) : RtmpMoqBridge :=
  match bridge.streams.lookup stream with
  | none => bridge
  | some _ =>
      { bridge with
        streams := bridge.streams.erase stream
        events := bridge.events ++ [.broadcastStopped stream]
        registry := (bridge.registry.erase (stream, "0.mp4")).erase (stream, "1.mp4") }

-- A negative composition offset becomes a huge u64 before it is scaled.
def videoPts (dts : Nat) (cts : Int) : Nat :=
  min (2 ^ 64 - 1) (dts + (cts % 2 ^ 64).toNat * 90 % 2 ^ 64)

def videoFragment (stream : ActiveStream) (keyframe : Bool) (cts : Int) (data : Bytes) (timestamp : Nat) : Media.Fragment :=
  let durationMs :=
    match stream.lastVideoTs with
    | some previous => timestamp - previous
    | none => 33
  let dts := timestamp * 90
  { trackId := "0.mp4"
    groupId := stream.videoSeq + 1
    dts := dts
    pts := videoPts dts cts
    duration := durationMs * 90 % 2 ^ 32
    flags := .ofKeyframe keyframe
    payload := data }

def onVideo (bridge : RtmpMoqBridge) (stream : String) (tag : FlvVideoTag) (timestamp : Nat) : RtmpMoqBridge :=
  match bridge.streams.lookup stream with
  | none => bridge
  | some state =>
      match tag with
      | .sequenceHeader init =>
          { bridge with streams := bridge.streams.insert stream { state with videoInit := some init } }.publishInit
            stream "0.mp4" "avc1" 90000 init
      | .nalu keyframe cts data =>
          if state.videoInit.isNone then bridge
          else
            let next := { state with lastVideoTs := some timestamp, videoSeq := state.videoSeq + 1 }
            { bridge with streams := bridge.streams.insert stream next }.publishFragment
              stream "0.mp4" "avc1" 90000 (videoFragment state keyframe cts data timestamp)
      | .endOfSequence | .unknown => bridge

def audioFragment (stream : ActiveStream) (sampleRate : Nat) (data : Bytes) (timestamp : Nat) : Media.Fragment :=
  let dts := timestamp * sampleRate / 1000
  { trackId := "1.mp4"
    groupId := stream.audioSeq + 1
    dts := dts
    pts := dts
    duration := 1024
    flags := .KEYFRAME
    payload := data }

def onAudio (bridge : RtmpMoqBridge) (stream : String) (tag : FlvAudioTag) (timestamp : Nat) : RtmpMoqBridge :=
  match bridge.streams.lookup stream with
  | none => bridge
  | some state =>
      match tag with
      | .sequenceHeader sampleRate init =>
          { bridge with streams := bridge.streams.insert stream { state with audioConfig := some (sampleRate, init) } }
            |>.publishInit stream "1.mp4" "mp4a.40.2" sampleRate init
      | .rawAac data =>
          match state.audioConfig with
          | none => bridge
          | some (sampleRate, _) =>
              { bridge with streams := bridge.streams.insert stream { state with audioSeq := state.audioSeq + 1 } }
                |>.publishFragment stream "1.mp4" "mp4a.40.2" sampleRate (audioFragment state sampleRate data timestamp)
      | .unknown => bridge

end RtmpMoqBridge

end Lvqr.Rtmp
