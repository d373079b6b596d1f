import Lvqr.Cmaf.AacConfig
import Lvqr.Fragment.Broadcaster
import Lvqr.Codec.AnnexB

set_option autoImplicit false

-- What an ingest hands to the broadcaster registry, in order.
namespace Lvqr.Ingest

open Cmaf (InitSegment)

inductive Publication where
  | init (broadcast track codec : String) (timescale : Nat) (segment : InitSegment)
  | fragment (broadcast track codec : String) (timescale : Nat) (fragment : Media.Fragment)
deriving DecidableEq, Repr

namespace Publication

def emitted : Publication → Option Media.Fragment
  | init .. => none
  | fragment _ _ _ _ sent => some sent

def announced : Publication → Option InitSegment
  | init _ _ _ _ segment => some segment
  | fragment .. => none

end Publication

end Lvqr.Ingest

-- What the RTSP and SRT connections keep of the media they receive. Both run the
-- same code over it: RTSP with depacketizer results, SRT with PES packets.
namespace Lvqr.Ingest

open Cmaf (Mp4Atom)
open Codec

structure MediaState where
  videoInitEmitted : Bool
  audioInitEmitted : Bool
  videoSeq : Nat
  audioSeq : Nat
  sps : Option Bytes
  pps : Option Bytes
  vps : Option Bytes
  prevVideoDts : Option Nat
  prevAudioDts : Option Nat
  audioTimescale : Nat
  published : List Publication

inductive VideoFormat where
  | avc
  | hevc
deriving DecidableEq, Repr

def VideoFormat.codec : VideoFormat → String
  | avc => "avc1"
  | hevc => "hev1"

-- The distance to the previous fragment, or a fixed guess where there is none.
def stampedDuration (fallback : Nat) (prev : Option Nat) (dts : Nat) : Nat :=
  match prev with
  | some prev => if prev < dts then (dts - prev) % 2 ^ 32 else fallback
  | none => fallback

namespace MediaState

def new : MediaState := ⟨false, false, 0, 0, none, none, none, none, none, 44100, []⟩

def publish (state : MediaState) (publication : Publication) : MediaState :=
  { state with published := state.published ++ [publication] }

def storeParameterSet (format : VideoFormat) (state : MediaState) (nal : Bytes) : MediaState :=
  match format with
  | .avc =>
      if avcNalType nal = 7 then { state with sps := some nal }
      else if avcNalType nal = 8 then { state with pps := some nal }
      else state
  | .hevc =>
      if nal.length < 2 then state
      else if hevcNalType nal = 32 then { state with vps := some nal }
      else if hevcNalType nal = 33 then { state with sps := some nal }
      else if hevcNalType nal = 34 then { state with pps := some nal }
      else state

-- What the stored parameter sets make of an init segment, if they are there and
-- accepted.
def videoInit (mp4 : Mp4Atom) (format : VideoFormat) (state : MediaState) : Option Cmaf.InitSegment :=
  match format with
  | .avc =>
      match state.sps, state.pps with
      | some sps, some pps => (Cmaf.writeAvcInitSegment mp4 ⟨sps, pps, 0, 0, 90000⟩).toOption
      | _, _ => none
  | .hevc =>
      match state.vps, state.sps, state.pps with
      | some vps, some sps, some pps =>
          match parseSps sps with
          | .error _ => none
          | .ok spsInfo => (Cmaf.writeHevcInitSegment mp4 ⟨vps, sps, pps, spsInfo, 90000⟩).toOption
      | _, _, _ => none

-- `none` where the source returns for want of an init segment.
def ensureVideoInit (mp4 : Mp4Atom) (format : VideoFormat) (broadcast : String) (state : MediaState) :
    Option MediaState :=
  if state.videoInitEmitted then some state
  else
    (state.videoInit mp4 format).map fun segment =>
      { state.publish (.init broadcast "0.mp4" format.codec 90000 segment) with videoInitEmitted := true }

end MediaState

def VideoFormat.skips (format : VideoFormat) (nal : Bytes) : Bool :=
  match format with
  | avc => isAvcParameterSet nal
  | hevc => nal.length < 2 || isHevcParameterSet nal

def nalsToLengthPrefixed (nalus : List Bytes) (format : VideoFormat) : Bytes :=
  lengthPrefixed (nalus.filter fun nal => !nal.isEmpty && !format.skips nal)

namespace MediaState

def emitVideoFragment (state : MediaState) (broadcast codec : String) (dts pts : Nat) (keyframe : Bool)
    (payload : Bytes) : MediaState :=
  { state with prevVideoDts := some dts, videoSeq := state.videoSeq + 1 }.publish
    (.fragment broadcast "0.mp4" codec 90000 {
      trackId := "0.mp4"
      groupId := state.videoSeq + 1
      dts := dts
      pts := pts
      duration := stampedDuration 3000 state.prevVideoDts dts
      flags := .ofKeyframe keyframe
      payload := payload
    })

def processNalus (mp4 : Mp4Atom) (format : VideoFormat) (broadcast : String) (state : MediaState)
    (nalus : List Bytes) (dts pts : Nat) (keyframe : Bool) : MediaState :=
  let stored := nalus.foldl (storeParameterSet format) state
  match stored.ensureVideoInit mp4 format broadcast with
  | none => stored
  | some ready =>
      let payload := nalsToLengthPrefixed nalus format
      if payload.isEmpty then ready else ready.emitVideoFragment broadcast format.codec dts pts keyframe payload

def announceAac (mp4 : Mp4Atom) (broadcast : String) (state : MediaState) (asc : Bytes) (timescale : Nat) :
    Option MediaState :=
  (Cmaf.writeAacInitSegment mp4 ⟨asc, timescale⟩).toOption.map fun segment =>
    {
      state.publish (.init broadcast "1.mp4" "mp4a.40.2" timescale segment) with
      audioInitEmitted := true
      audioTimescale := timescale
    }

def emitAacFrame (broadcast : String) (dts pts : Nat) (state : MediaState) (frame : Bytes) : MediaState :=
  { state with prevAudioDts := some dts, audioSeq := state.audioSeq + 1 }.publish
    (.fragment broadcast "1.mp4" "mp4a.40.2" state.audioTimescale {
      trackId := "1.mp4"
      groupId := state.audioSeq + 1
      dts := dts
      pts := pts
      duration := stampedDuration 1024 state.prevAudioDts dts
      flags := FragmentFlags.AUDIO
      payload := frame
    })

end MediaState

end Lvqr.Ingest
