import Lvqr.Ingest.MediaState
import Lvqr.Ingest.Stamps
import Lvqr.Rtp.Aac
import Lvqr.Rtp.Packetizer
import Lvqr.Rtsp.Proto
import Lvqr.Rtsp.Session

set_option autoImplicit false

-- The media half of an RTSP connection: interleaved RTP frames become fragments on
-- the two tracks it fills while it publishes one broadcast.
namespace Lvqr.Rtsp

open Cmaf (Mp4Atom)
open Ingest (MediaState VideoFormat stampedDuration stamps VIDEO_TRACK AUDIO_TRACK)
open Rtp (RtpHeader DepackResult H264Depacketizer HevcDepacketizer parseRtpHeader)
open Timeline (Track)

structure IngestState where
  h264Depack : H264Depacketizer
  hevcDepack : HevcDepacketizer
  media : MediaState

def IngestState.new : IngestState := ⟨Rtp.Depacketizer.new, Rtp.Depacketizer.new, MediaState.new⟩

-- Without a transport on the channel the first pair of channels is video.
def findMediaTypeForChannel (session : Session) (channel : UInt8) : MediaType :=
  let onChannel := session.tracks.find? fun track =>
    match session.transports.lookup track.control with
    | some transport => transport.interleaved.map Prod.fst == some channel.toNat
    | none => false
  match onChannel with
  | some track => track.mediaType
  | none => if 2 ≤ channel then .audio else .video

def processH264Nalus (mp4 : Mp4Atom) (broadcast : String) (media : MediaState) (result : DepackResult) : MediaState :=
  let dts := result.timestamp.toNat
  media.processNalus mp4 .avc broadcast result.nalus dts dts result.keyframe

def processHevcNalus (mp4 : Mp4Atom) (broadcast : String) (media : MediaState) (result : DepackResult) : MediaState :=
  let dts := result.timestamp.toNat
  media.processNalus mp4 .hevc broadcast result.nalus dts dts result.keyframe

def videoCodec (session : Session) : TrackCodec :=
  match session.tracks.find? (·.mediaType == .video) with
  | some track => track.codec
  | none => .h264

def processVideoRtp (mp4 : Mp4Atom) (state : IngestState) (session : Session) (rtpPayload : Bytes) (header : RtpHeader) :
    IngestState :=
  match videoCodec session with
  | .h265 =>
      let (result, depack) := state.hevcDepack.depacketize rtpPayload header
      match result with
      | none => { state with hevcDepack := depack }
      | some result =>
          { state with
            hevcDepack := depack
            media := processHevcNalus mp4 session.broadcast state.media result }
  | _ =>
      let (result, depack) := state.h264Depack.depacketize rtpPayload header
      match result with
      | none => { state with h264Depack := depack }
      | some result =>
          { state with
            h264Depack := depack
            media := processH264Nalus mp4 session.broadcast state.media result }

def ensureAacInit (mp4 : Mp4Atom) (session : Session) (media : MediaState) : Option MediaState :=
  if media.audioInitEmitted then some media
  else
    let track := session.tracks.find? (·.codec == .aac)
    match (track.bind TrackInfo.fmtp).bind Rtp.parseAacConfigFromFmtp with
    | none => none
    | some asc => media.announceAac mp4 session.broadcast asc ((track.map TrackInfo.clockRate).getD 44100)

theorem ensure_aac_init_cases (mp4 : Mp4Atom) (session : Session) (media ready : MediaState)
    (ensured : ensureAacInit mp4 session media = some ready) :
    ready = media ∨ ∃ asc clockRate, media.announceAac mp4 session.broadcast asc clockRate = some ready := by
  rw [ensureAacInit] at ensured
  split at ensured
  · exact .inl (Option.some.inj ensured).symm
  · dsimp only at ensured
    split at ensured
    · cases ensured
    · exact .inr ⟨_, _, ensured⟩

def processAudioRtp (mp4 : Mp4Atom) (state : IngestState) (session : Session) (rtpPayload : Bytes) (header : RtpHeader) :
    IngestState :=
  match Rtp.aacDepacketize rtpPayload header with
  | none => state
  | some result =>
      match ensureAacInit mp4 session state.media with
      | none => state
      | some ready =>
          let dts := result.timestamp.toNat
          { state with media := result.frames.foldl (MediaState.emitAacFrame session.broadcast dts dts) ready }

-- `recording` is the session that the lookup in the connection's table finds; odd
-- channels carry RTCP.
def processRtpFrame (mp4 : Mp4Atom) (recording : Option Session) (state : IngestState) (frame : InterleavedFrame) :
    IngestState :=
  if frame.channel % 2 ≠ 0 then state
  else
    match parseRtpHeader frame.payload with
    | none => state
    | some header =>
        let rtpPayload := frame.payload.drop header.headerLen
        match recording with
        | none => state
        | some session =>
            match findMediaTypeForChannel session frame.channel with
            | .audio => processAudioRtp mp4 state session rtpPayload header
            | .video => processVideoRtp mp4 state session rtpPayload header

-- A frame and the recording session that the connection finds when it arrives.
structure Arrival (broadcast : String) where
  recording : Option Session
  frame : InterleavedFrame
  same : ∀ session ∈ recording, session.broadcast = broadcast

variable {broadcast : String}

-- The session and the RTP header, if the frame belongs to media of the kind.
def Arrival.routed (arrival : Arrival broadcast) (kind : MediaType) : Option (Session × RtpHeader) :=
  if arrival.frame.channel % 2 ≠ 0 then none
  else
    match parseRtpHeader arrival.frame.payload, arrival.recording with
    | some header, some session =>
        if findMediaTypeForChannel session arrival.frame.channel = kind then some (session, header) else none
    | _, _ => none

def Arrival.rtpPayload (arrival : Arrival broadcast) (header : RtpHeader) : Bytes :=
  arrival.frame.payload.drop header.headerLen

def Arrival.timestamp (arrival : Arrival broadcast) : Nat :=
  match parseRtpHeader arrival.frame.payload with
  | some header => header.timestamp.toNat
  | none => 0

def videoResult (state : IngestState) (session : Session) (rtpPayload : Bytes) (header : RtpHeader) :
    Option (VideoFormat × DepackResult) :=
  match videoCodec session with
  | .h265 => (state.hevcDepack.depacketize rtpPayload header).1.map (VideoFormat.hevc, ·)
  | _ => (state.h264Depack.depacketize rtpPayload header).1.map (VideoFormat.avc, ·)

def videoSends (mp4 : Mp4Atom) (state : IngestState) (arrival : Arrival broadcast) : Nat :=
  match arrival.routed .video with
  | none => 0
  | some (session, header) =>
      match videoResult state session (arrival.rtpPayload header) header with
      | none => 0
      | some (format, result) => (state.media.sendsPicture mp4 format result.nalus).toNat

def audioReady (mp4 : Mp4Atom) (session : Session) (media : MediaState) : Bool :=
  (ensureAacInit mp4 session media).isSome

-- The access units of an AAC packet.
def audioUnits (arrival : Arrival broadcast) : Nat :=
  match arrival.routed .audio with
  | none => 0
  | some (_, header) =>
      match Rtp.aacDepacketize (arrival.rtpPayload header) header with
      | none => 0
      | some result => result.frames.length

def audioSends (mp4 : Mp4Atom) (state : IngestState) (arrival : Arrival broadcast) : Nat :=
  match arrival.routed .audio with
  | none => 0
  | some (session, _) => if audioReady mp4 session state.media then audioUnits arrival else 0

theorem depacketize_fragment_timestamp {format : Rtp.NalFormat} (depack : Rtp.Depacketizer format) (rtpPayload : Bytes)
    (header : RtpHeader) (result : DepackResult)
    (depacketized : (depack.depacketizeFragment rtpPayload header).1 = some result) :
    result.timestamp = header.timestamp := by
  rw [Rtp.Depacketizer.depacketizeFragment] at depacketized
  split at depacketized
  · cases depacketized
  · dsimp only at depacketized
    split at depacketized
    · cases depacketized
    · by_cases finish : (Rtp.byteAt rtpPayload format.headerLen &&& 0x40 != 0) = true
      · rw [if_pos finish] at depacketized
        rw [← Option.some.inj depacketized]
      · rw [if_neg finish] at depacketized
        cases depacketized

theorem depacketize_timestamp {format : Rtp.NalFormat} (depack : Rtp.Depacketizer format) (rtpPayload : Bytes)
    (header : RtpHeader) (result : DepackResult) (depacketized : (depack.depacketize rtpPayload header).1 = some result) :
    result.timestamp = header.timestamp := by
  rw [Rtp.Depacketizer.depacketize] at depacketized
  split at depacketized
  · cases depacketized
  · dsimp only at depacketized
    split at depacketized
    · rw [← Option.some.inj depacketized]
    · split at depacketized
      · split at depacketized
        · cases depacketized
        · rw [← Option.some.inj depacketized]
      · split at depacketized
        · exact depacketize_fragment_timestamp depack rtpPayload header result depacketized
        · cases depacketized

theorem aac_depacketize_timestamp (rtpPayload : Bytes) (header : RtpHeader) (result : Rtp.AacDepackResult)
    (depacketized : Rtp.aacDepacketize rtpPayload header = some result) : result.timestamp = header.timestamp := by
  rw [Rtp.aacDepacketize] at depacketized
  split at depacketized
  · cases depacketized
  · dsimp only at depacketized
    split at depacketized
    · cases depacketized
    · split at depacketized
      · cases depacketized
      · split at depacketized
        · cases depacketized
        · rw [← Option.some.inj depacketized]

theorem ensure_aac_init_adds (mp4 : Mp4Atom) (session : Session) (media ready : MediaState)
    (ensured : ensureAacInit mp4 session media = some ready) :
    MediaState.Adds session.broadcast media ready [] [] := by
  obtain rfl | ⟨asc, clockRate, announced⟩ := ensure_aac_init_cases mp4 session media ready ensured
  · exact MediaState.Adds.refl _ ready
  · exact MediaState.announce_aac_adds mp4 _ media ready asc clockRate announced

theorem process_video_adds (mp4 : Mp4Atom) (state : IngestState) (session : Session) (rtpPayload : Bytes)
    (header : RtpHeader) :
    MediaState.Adds session.broadcast state.media (processVideoRtp mp4 state session rtpPayload header).media
      (List.replicate
        (match videoResult state session rtpPayload header with
        | none => 0
        | some (format, result) => (state.media.sendsPicture mp4 format result.nalus).toNat)
        header.timestamp.toNat) [] := by
  rw [processVideoRtp, videoResult]
  cases videoCodec session with
  | h265 =>
      dsimp only
      cases depacketized : (state.hevcDepack.depacketize rtpPayload header).1 with
      | none => exact MediaState.Adds.refl _ _
      | some result =>
          rw [← depacketize_timestamp _ _ _ _ depacketized]
          exact state.media.process_nalus_adds mp4 .hevc _ _ _ _ _
  | h264 | aac | opus | unknown =>
      dsimp only
      cases depacketized : (state.h264Depack.depacketize rtpPayload header).1 with
      | none => exact MediaState.Adds.refl _ _
      | some result =>
          rw [← depacketize_timestamp _ _ _ _ depacketized]
          exact state.media.process_nalus_adds mp4 .avc _ _ _ _ _

theorem process_audio_adds (mp4 : Mp4Atom) (state : IngestState) (session : Session) (rtpPayload : Bytes)
    (header : RtpHeader) :
    MediaState.Adds session.broadcast state.media (processAudioRtp mp4 state session rtpPayload header).media []
      (List.replicate
        (if audioReady mp4 session state.media then
          match Rtp.aacDepacketize rtpPayload header with
          | none => 0
          | some result => result.frames.length
        else 0)
        header.timestamp.toNat) := by
  rw [processAudioRtp, audioReady]
  cases depacketized : Rtp.aacDepacketize rtpPayload header with
  | none =>
      rw [ite_self]
      exact MediaState.Adds.refl _ _
  | some result =>
      dsimp only
      cases ensured : ensureAacInit mp4 session state.media with
      | none => exact MediaState.Adds.refl _ _
      | some ready =>
          rw [← aac_depacketize_timestamp _ _ _ depacketized]
          exact (ensure_aac_init_adds mp4 session state.media ready ensured).trans
            (MediaState.emit_all_aac_adds _ _ _ ready _)

theorem process_rtp_frame_adds (mp4 : Mp4Atom) (state : IngestState) (arrival : Arrival broadcast) :
    MediaState.Adds broadcast state.media (processRtpFrame mp4 arrival.recording state arrival.frame).media
      (List.replicate (videoSends mp4 state arrival) arrival.timestamp)
      (List.replicate (audioSends mp4 state arrival) arrival.timestamp) := by
  rw [processRtpFrame, videoSends, audioSends, audioUnits, Arrival.routed, Arrival.routed, Arrival.timestamp]
  by_cases rtcp : arrival.frame.channel % 2 ≠ 0
  · simp only [if_pos rtcp]
    exact MediaState.Adds.refl _ _
  · simp only [if_neg rtcp]
    cases parsed : parseRtpHeader arrival.frame.payload with
    | none => exact MediaState.Adds.refl _ _
    | some header =>
        cases found : arrival.recording with
        | none => exact MediaState.Adds.refl _ _
        | some session =>
            obtain rfl : session.broadcast = broadcast := arrival.same session found
            dsimp only
            cases findMediaTypeForChannel session arrival.frame.channel with
            | video =>
                exact process_video_adds mp4 state session (arrival.frame.payload.drop header.headerLen) header
            | audio =>
                exact process_audio_adds mp4 state session (arrival.frame.payload.drop header.headerLen) header

def videoTrack (mp4 : Mp4Atom) (broadcast : String) : Track IngestState (Arrival broadcast) where
  step state arrival := processRtpFrame mp4 arrival.recording state arrival.frame
  stamps state := stamps broadcast VIDEO_TRACK state.media.published
  previous state := state.media.prevVideoDts
  rule := stampedDuration 3000
  sends := videoSends mp4
  time _ := Arrival.timestamp
  stamps_step state arrival := (process_rtp_frame_adds mp4 state arrival).video_stamps
  previous_step state arrival := (process_rtp_frame_adds mp4 state arrival).video_previous

def audioTrack (mp4 : Mp4Atom) (broadcast : String) : Track IngestState (Arrival broadcast) where
  step state arrival := processRtpFrame mp4 arrival.recording state arrival.frame
  stamps state := stamps broadcast AUDIO_TRACK state.media.published
  previous state := state.media.prevAudioDts
  rule := stampedDuration 1024
  sends := audioSends mp4
  time _ := Arrival.timestamp
  stamps_step state arrival := (process_rtp_frame_adds mp4 state arrival).audio_stamps
  previous_step state arrival := (process_rtp_frame_adds mp4 state arrival).audio_previous

-- The RTP timestamp of a frame that belongs to media of the kind.
def Arrival.wire (kind : MediaType) (arrival : Arrival broadcast) : Option Nat :=
  (arrival.routed kind).map fun (_, header) => header.timestamp.toNat

theorem routed_timestamp (arrival : Arrival broadcast) (kind : MediaType) (session : Session) (header : Rtp.RtpHeader)
    (routed : arrival.routed kind = some (session, header)) : arrival.timestamp ∈ arrival.wire kind := by
  rw [Arrival.wire, routed, Option.map_some, Option.mem_some_iff, Arrival.timestamp]
  rw [Arrival.routed] at routed
  split at routed
  · cases routed
  · split at routed
    · rename_i found session parsed _
      split at routed
      · obtain ⟨rfl, rfl⟩ := Prod.mk.inj (Option.some.inj routed)
        rw [parsed]
      · cases routed
    · cases routed

theorem video_shown (mp4 : Mp4Atom) (state : IngestState) (arrival : Arrival broadcast)
    (sends : 0 < videoSends mp4 state arrival) : arrival.timestamp ∈ arrival.wire .video := by
  rw [videoSends] at sends
  cases routed : arrival.routed .video with
  | none => simp [routed] at sends
  | some pair => exact routed_timestamp arrival .video pair.1 pair.2 routed

theorem audio_shown (mp4 : Mp4Atom) (state : IngestState) (arrival : Arrival broadcast)
    (sends : 0 < audioSends mp4 state arrival) : arrival.timestamp ∈ arrival.wire .audio := by
  rw [audioSends] at sends
  cases routed : arrival.routed .audio with
  | none => simp [routed] at sends
  | some pair => exact routed_timestamp arrival .audio pair.1 pair.2 routed

end Lvqr.Rtsp
