import Lvqr.Rtmp.Tracks
import Lvqr.Rtsp.Tracks
import Lvqr.Srt.AudioClock

set_option autoImplicit false

-- Fragment starts are taken from the wire clocks as they are, wraps and all.
namespace Lvqr.Ingest

open Cmaf (Mp4Atom)
open Timeline (Clocked Reading Timed Ascending SamePeriod Dense)

def asShown (range : Nat) : Reading range where
  read _ shown := shown
  mono _ later := later

def RTP_CLOCK : Nat := 2 ^ 32

def PES_CLOCK : Nat := 2 ^ 33

-- A clock that sets the starts of a track's entries in ticks of its own.
def tickClock {State Op : Type} (range : Nat) (track : Timeline.Track State Op) (wire : Op → Option Nat)
    (shown : ∀ state op, 0 < track.sends state op → track.time state op ∈ wire op) : Clocked State Op range where
  toEmitter := track.emitter
  wire := wire
  reading := asShown range
  setting _ _ := 0
  time_wire state op sends := ⟨track.time state op, shown state op sends, rfl⟩

theorem tick_clock_order {State Op : Type} (range : Nat) (track : Timeline.Track State Op) (wire : Op → Option Nat)
    (shown : ∀ state op, 0 < track.sends state op → track.time state op ∈ wire op) (state : State)
    (empty : track.stamps state = []) : (tickClock range track wire shown).OrderedBetweenWraps state := by
  refine Clocked.ordered_between_wraps _ state ?_ 0 (fun _ _ => rfl) fun reading later fall => ?_
  · show (track.stamps state).map Prod.fst = []
    rw [empty, List.map_nil]
  · show reading < later
    omega

end Lvqr.Ingest

namespace Lvqr.Rtsp

open Cmaf (Mp4Atom)
open Timeline (Clocked)

def videoClock (mp4 : Mp4Atom) (broadcast : String) : Clocked IngestState (Arrival broadcast) Ingest.RTP_CLOCK :=
  Ingest.tickClock Ingest.RTP_CLOCK (videoTrack mp4 broadcast) (Arrival.wire .video) (video_shown mp4)

def audioClock (mp4 : Mp4Atom) (broadcast : String) : Clocked IngestState (Arrival broadcast) Ingest.RTP_CLOCK :=
  Ingest.tickClock Ingest.RTP_CLOCK (audioTrack mp4 broadcast) (Arrival.wire .audio) (audio_shown mp4)

end Lvqr.Rtsp

namespace Lvqr.Srt

open Cmaf (Mp4Atom)
open Ingest (MediaState)
open Timeline (Clocked)
open Ts (PesPacket)

-- A PES packet with a timestamp in its header.
structure StampedPes where
  pes : PesPacket
  stamp : Nat
  stamped : pes.dts.or pes.pts = some stamp

theorem stamped_dts (stamped : StampedPes) : pesDts stamped.pes = stamped.stamp := by
  rw [pesDts, stamped.stamped, Option.getD_some]

def StampedPes.videoWire (stamped : StampedPes) : Option Nat :=
  (videoFormat stamped.pes).map fun _ => stamped.stamp

def StampedPes.audioWire (stamped : StampedPes) : Option Nat :=
  if stamped.pes.streamType = .aac then some stamped.stamp else none

theorem video_shown (mp4 : Mp4Atom) (state : MediaState) (stamped : StampedPes)
    (sends : 0 < videoSends mp4 state stamped.pes) : pesDts stamped.pes ∈ stamped.videoWire := by
  rw [videoSends] at sends
  rw [StampedPes.videoWire]
  cases format : videoFormat stamped.pes with
  | none => simp [format] at sends
  | some format => exact congrArg some (stamped_dts stamped).symm

theorem audio_shown (mp4 : Mp4Atom) (state : MediaState) (stamped : StampedPes)
    (sends : 0 < audioSends mp4 state stamped.pes) : pesDts stamped.pes ∈ stamped.audioWire := by
  rw [audioSends, audioUnits] at sends
  rw [StampedPes.audioWire]
  by_cases aac : stamped.pes.streamType = .aac
  · rw [if_pos aac]
    exact congrArg some (stamped_dts stamped).symm
  · simp [aac] at sends

def videoClock (mp4 : Mp4Atom) (broadcast : String) : Clocked MediaState StampedPes Ingest.PES_CLOCK :=
  Ingest.tickClock Ingest.PES_CLOCK ((videoTrack mp4 broadcast).comap StampedPes.pes) StampedPes.videoWire
    (video_shown mp4)

def audioClock (mp4 : Mp4Atom) (broadcast : String) : Clocked MediaState StampedPes Ingest.PES_CLOCK :=
  Ingest.tickClock Ingest.PES_CLOCK ((audioTrack mp4 broadcast).comap StampedPes.pes) StampedPes.audioWire
    (audio_shown mp4)

end Lvqr.Srt

namespace Lvqr.Rtmp

theorem video_clock_order (stream : String) : (videoClock stream).OrderedBetweenWraps Publishers.new := by
  refine Timeline.Clocked.ordered_between_wraps _ _ rfl 0 (fun _ _ => rfl) fun wire later fall => ?_
  show wire * 90 < later * 90
  omega

theorem audio_clock_order (stream : String) : (audioClock stream).OrderedAtRisingSettings Publishers.new := by
  refine Timeline.Clocked.ordered_at_rising_settings _ _ rfl fun rate positive wire later fall => ?_
  show wire * rate / 1000 < later * rate / 1000
  have apart : 1000 ≤ later - wire := by
    rw [RTMP_CLOCK] at fall
    omega
  have samples : wire * rate + 1000 ≤ later * rate :=
    calc
      wire * rate + 1000 ≤ wire * rate + 1000 * rate :=
        Nat.add_le_add_left (Nat.le_mul_of_pos_right 1000 positive) _
      _ = (wire + 1000) * rate := (Nat.add_mul wire 1000 rate).symm
      _ ≤ later * rate := Nat.mul_le_mul_right rate (by omega)
  omega

end Lvqr.Rtmp

namespace Lvqr.Ingest

open Cmaf (Mp4Atom)
open Timeline (Timed Ascending Dense)

-- The starts of every track stay in order exactly as long as no wrap of the wire
-- clock lies between two fragments of the track; RTMP audio also needs a sample
-- rate that does not fall.
theorem fragments_ordered_between_wraps (mp4 : Mp4Atom) (broadcast : String) :
    ((Rtsp.videoClock mp4 broadcast).OrderedBetweenWraps Rtsp.IngestState.new ∧
      (Rtsp.audioClock mp4 broadcast).OrderedBetweenWraps Rtsp.IngestState.new) ∧
    ((Srt.videoClock mp4 broadcast).OrderedBetweenWraps MediaState.new ∧
      (Srt.audioClock mp4 broadcast).OrderedBetweenWraps MediaState.new) ∧
    (Rtmp.videoClock broadcast).OrderedBetweenWraps Rtmp.Publishers.new ∧
    (Rtmp.audioClock broadcast).OrderedAtRisingSettings Rtmp.Publishers.new := by
  refine ⟨⟨?_, ?_⟩, ⟨?_, ?_⟩, Rtmp.video_clock_order broadcast, Rtmp.audio_clock_order broadcast⟩
  · exact tick_clock_order RTP_CLOCK _ _ (Rtsp.video_shown mp4) _ rfl
  · exact tick_clock_order RTP_CLOCK _ _ (Rtsp.audio_shown mp4) _ rfl
  · exact tick_clock_order PES_CLOCK _ _ (Srt.video_shown mp4) _ rfl
  · exact tick_clock_order PES_CLOCK _ _ (Srt.audio_shown mp4) _ rfl

def wrappingRtmp : List (Timed Rtmp.RTMP_CLOCK (Rtmp.videoClock "live").wire) :=
  [⟨.publish 1 "live" true, 0, by decide⟩, ⟨.video 1 "live" (.sequenceHeader [1]) 0, 0, by decide⟩,
    ⟨.video 1 "live" (.nalu true 0 [2]) 4294967295, 4294967295, by decide⟩,
    ⟨.video 1 "live" (.nalu false 0 [3]) 33, 4294967329, by decide⟩]

def picturePes (nals : Bytes) (pts : Nat) : Ts.PesPacket := ⟨256, .h264, some pts, none, nals⟩

def wrappingPes : List (Timed PES_CLOCK (Srt.videoClock (fun _ => true) "live").wire) :=
  [⟨⟨picturePes [0, 0, 1, 0x67, 66, 0, 0, 1, 0x68, 1, 0, 0, 1, 0x65, 1] 8589934000, 8589934000, rfl⟩, 8589934000,
      by decide⟩,
    ⟨⟨picturePes [0, 0, 1, 0x41, 1] 2408, 2408, rfl⟩, 8589937000, by decide⟩]

def avcSession : Rtsp.Session :=
  { Rtsp.Session.new "1" .ingest "live" with
    state := .recording
    tracks := [⟨.video, .h264, 90000, "trackID=0", none⟩] }

def rtpArrival (nal : Bytes) (timestamp : UInt32) : Rtsp.Arrival "live" where
  recording := some avcSession
  frame := ⟨0, Rtp.writeRtpHeader 96 0 timestamp 1 true ++ nal⟩
  same session found := by
    obtain rfl := Option.mem_some_iff.mp found
    rfl

def wrappingRtp : List (Timed RTP_CLOCK (Rtsp.videoClock (fun _ => true) "live").wire) :=
  [⟨rtpArrival [0x67, 66] 4294967000, 4294967000, by decide⟩,
    ⟨rtpArrival [0x68, 1] 4294967000, 4294967000, by decide +kernel⟩,
    ⟨rtpArrival [0x65, 1] 4294967000, 4294967000, by decide⟩,
    ⟨rtpArrival [0x41, 1] 2704, 4294970000, by decide⟩]

-- A frame 34 ms after the last one before the wrap starts at 33 ms, and the same on
-- the other two wires.
theorem wrapped_clocks_rewind :
    (Dense Rtmp.RTMP_CLOCK ((Rtmp.videoClock "live").onTrack wrappingRtmp) ∧
      ¬ Ascending ((Rtmp.videoClock "live").starting .new wrappingRtmp)) ∧
    (Dense PES_CLOCK ((Srt.videoClock (fun _ => true) "live").onTrack wrappingPes) ∧
      ¬ Ascending ((Srt.videoClock (fun _ => true) "live").starting .new wrappingPes)) ∧
    (Dense RTP_CLOCK ((Rtsp.videoClock (fun _ => true) "live").onTrack wrappingRtp) ∧
      ¬ Ascending ((Rtsp.videoClock (fun _ => true) "live").starting .new wrappingRtp)) := by
  decide +kernel

end Lvqr.Ingest
