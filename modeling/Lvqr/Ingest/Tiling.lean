import Lvqr.Rtsp.Tracks
import Lvqr.Srt.Adts
import Lvqr.Srt.AudioClock
import Lvqr.Whip.Tracks

set_option autoImplicit false

-- Fragment durations are found from the fragment before, or fixed.
namespace Lvqr.Rtsp

open Cmaf (Mp4Atom)
open Timeline (Track)

variable {broadcast : String}

-- The RTP packets of one picture, and what arrives between them.
abbrev AccessUnit (broadcast : String) := Timeline.Batch (@Arrival.wire broadcast .video)

def accessUnitTrack (mp4 : Mp4Atom) (broadcast : String) : Track IngestState (AccessUnit broadcast) :=
  (videoTrack mp4 broadcast).batched (Arrival.wire .video) (video_shown mp4)

-- The packets of the unit that complete a depacketizer result with picture data
-- while there is an init segment.
def picturesSent (mp4 : Mp4Atom) (state : IngestState) (unit : AccessUnit broadcast) : Nat :=
  (videoTrack mp4 broadcast).total state unit.ops

def IngestState.audioReady (mp4 : Mp4Atom) (state : IngestState) (arrival : Arrival broadcast) : Bool :=
  match arrival.routed .audio with
  | none => false
  | some (session, _) => Rtsp.audioReady mp4 session state.media

theorem audio_sends_eq (mp4 : Mp4Atom) (state : IngestState) (arrival : Arrival broadcast) :
    audioSends mp4 state arrival = if state.audioReady mp4 arrival then audioUnits arrival else 0 := by
  rw [audioSends, IngestState.audioReady]
  cases arrival.routed .audio <;> rfl

end Lvqr.Rtsp

namespace Lvqr.Srt

open Cmaf (Mp4Atom)
open Ingest (MediaState)
open Ts (PesPacket)

theorem video_sends_eq (mp4 : Mp4Atom) (state : MediaState) (pes : PesPacket) :
    videoSends mp4 state pes = if videoReady mp4 state pes then videoUnits pes else 0 := by
  rw [videoSends, videoReady, videoUnits]
  cases videoFormat pes with
  | none => rfl
  | some format =>
      dsimp only
      rw [MediaState.sendsPicture]
      by_cases ready : state.pictureReady mp4 format (Codec.splitAnnexB pes.payload) = true <;> simp [ready]

end Lvqr.Srt

namespace Lvqr.Ingest

open Cmaf (Mp4Atom)
open Timeline (Track)

theorem all_sent_iff {ready : Bool} {sends units : Nat} (sent : sends = if ready then units else 0) :
    units = 0 ∨ ready = true ↔ sends = units := by
  rw [sent]
  cases ready with
  | true => simp
  | false => simp [eq_comm]

-- The durations tile a track exactly when the access units come at the one distance
-- that stands in the code for the first of them: 3000 ticks of video, 1024 samples of
-- AAC, 960 of Opus, and every unit that comes gets its one fragment.
theorem durations_tile_iff (mp4 : Mp4Atom) (broadcast : String) :
    ((Rtsp.accessUnitTrack mp4 broadcast).TilesWhere
        (fun state unit => Rtsp.picturesSent mp4 state unit = 1) (fun _ => 1) 3000 Rtsp.IngestState.new ∧
      (Rtsp.audioTrack mp4 broadcast).TilesWhere
        (fun state arrival => Rtsp.audioUnits arrival = 0 ∨ state.audioReady mp4 arrival = true)
        Rtsp.audioUnits 1024 Rtsp.IngestState.new) ∧
    ((Srt.videoTrack mp4 broadcast).TilesWhere
        (fun state pes => Srt.videoUnits pes = 0 ∨ Srt.videoReady mp4 state pes = true)
        Srt.videoUnits 3000 MediaState.new ∧
      (Srt.audioTrack mp4 broadcast).TilesWhere
        (fun state pes => Srt.audioUnits pes = 0 ∨ Srt.audioReady mp4 state pes.payload = true)
        Srt.audioUnits 1024 MediaState.new) ∧
    ((Whip.videoTrack broadcast).TilesWhere
        (fun ctx event => Whip.videoUnits event = 0 ∨ ctx.videoReady broadcast event = true)
        Whip.videoUnits 3000 ⟨none, none, .new⟩ ∧
      (Whip.audioTrack broadcast).TilesWhere
        (fun ctx event => Whip.audioUnits event = 0 ∨ ctx.audioReady broadcast event = true)
        Whip.audioUnits 960 ⟨none, none, .new⟩) := by
  have video : Timeline.Steady (stampedDuration 3000) 3000 := stamped_duration_steady 3000 (by decide) (by decide)
  have audio : Timeline.Steady (stampedDuration 1024) 1024 := stamped_duration_steady 1024 (by decide) (by decide)
  refine ⟨⟨?_, ?_⟩, ⟨?_, ?_⟩, ?_, ?_⟩
  · exact (Rtsp.accessUnitTrack mp4 broadcast).tiles_where video (fun _ _ => Iff.rfl) _ rfl rfl
  · refine (Rtsp.audioTrack mp4 broadcast).tiles_where audio (fun state arrival => ?_) _ rfl rfl
    exact all_sent_iff (Rtsp.audio_sends_eq mp4 state arrival)
  · refine (Srt.videoTrack mp4 broadcast).tiles_where video (fun state pes => ?_) _ rfl rfl
    exact all_sent_iff (Srt.video_sends_eq mp4 state pes)
  · refine (Srt.audioTrack mp4 broadcast).tiles_where audio (fun state pes => ?_) _ rfl rfl
    exact all_sent_iff rfl
  · refine (Whip.videoTrack broadcast).tiles_where (Timeline.constant_steady 3000) (fun ctx event => ?_) _ rfl rfl
    exact all_sent_iff rfl
  · refine (Whip.audioTrack broadcast).tiles_where (Timeline.constant_steady 960) (fun ctx event => ?_) _ rfl rfl
    exact all_sent_iff rfl

def pesPicturesEvery (gap : Nat) : List Ts.PesPacket :=
  [⟨256, .h264, some gap, none, [0, 0, 1, 0x67, 66, 0, 0, 1, 0x68, 1, 0, 0, 1, 0x65, 1]⟩,
    ⟨256, .h264, some (2 * gap), none, [0, 0, 1, 0x41, 1]⟩, ⟨256, .h264, some (3 * gap), none, [0, 0, 1, 0x41, 2]⟩]

def aacSession : Rtsp.Session :=
  { Rtsp.Session.new "1" .ingest "live" with
    state := .recording
    tracks := [⟨.audio, .aac, 44100, "trackID=1", some "97 mode=AAC-hbr;config=1210"⟩] }

-- An RTP packet of two access units of one byte each.
def twoUnitArrival : Rtsp.Arrival "live" where
  recording := some aacSession
  frame := ⟨2, Rtp.writeRtpHeader 97 0 44100 1 true ++ [0, 32, 0, 8, 0, 8, 1, 2]⟩
  same session found := by
    obtain rfl := Option.mem_some_iff.mp found
    rfl

def openOutside : Whip.Outside := ⟨fun _ => true, fun _ => none, true⟩

def whipPicturesEvery (gap : Nat) : List Whip.MediaEvent :=
  [.video openOutside ⟨.h264, gap, true, [0, 0, 1, 0x67, 66, 0, 0, 1, 0x68, 1, 0, 0, 1, 0x65, 1]⟩,
    .video openOutside ⟨.h264, 2 * gap, false, [0, 0, 1, 0x41, 1]⟩]

-- Pictures at 25 a second, and two access units in one RTP packet; pictures at 30 a
-- second tile.
theorem durations_leave_gaps :
    ¬ (Srt.videoTrack (fun _ => true) "live").Tiles Srt.videoUnits .new (pesPicturesEvery 3600) ∧
    ¬ (Rtsp.audioTrack (fun _ => true) "live").Tiles Rtsp.audioUnits .new [twoUnitArrival] ∧
    ¬ (Whip.videoTrack "live").Tiles Whip.videoUnits ⟨none, none, .new⟩ (whipPicturesEvery 3600) ∧
    (Srt.videoTrack (fun _ => true) "live").Tiles Srt.videoUnits .new (pesPicturesEvery 3000) := by
  decide

end Lvqr.Ingest
