import Lvqr.Codec.SpsSyntax
import Lvqr.Ingest.Stamps
import Lvqr.Rtsp.Tracks
import Lvqr.Srt.AudioClock
import Lvqr.Whip.Bridge

set_option autoImplicit false

-- All three ingests hand whole HEVC NAL units to a parser that starts behind the
-- NAL header.
namespace Lvqr.Ingest

open Cmaf (Mp4Atom InitSegment HevcInitParams)
open Codec (parseSps SpsNal)

-- The fields of an HEVC init segment are what the parser makes of its SPS.
def SpsRead (segment : InitSegment) : Prop :=
  ∀ params, segment = .hevc params → parseSps params.sps = .ok params.spsInfo

def AllRead (published : List Publication) : Prop :=
  ∀ publication ∈ published, ∀ segment ∈ publication.announced, SpsRead segment

theorem all_read_nil : AllRead [] := fun _ member => nomatch member

theorem all_read_snoc (published : List Publication) (publication : Publication) (read : AllRead published)
    (last : ∀ segment ∈ publication.announced, SpsRead segment) : AllRead (published ++ [publication]) := by
  intro sent member
  rcases List.mem_append.mp member with before | here
  · exact read sent before
  · rw [List.mem_singleton.mp here]
    exact last

theorem all_read_fragment (published : List Publication) (broadcast track codec : String) (timescale : Nat)
    (fragment : Media.Fragment) (read : AllRead published) :
    AllRead (published ++ [.fragment broadcast track codec timescale fragment]) :=
  all_read_snoc published _ read fun _ announced => nomatch announced

theorem encoded_segment_read (mp4 : Mp4Atom) (segment encoded : InitSegment) (read : SpsRead segment)
    (ok : Cmaf.encodeSegment mp4 segment = .ok encoded) : SpsRead encoded := by
  rw [Cmaf.encodeSegment] at ok
  split at ok
  · exact Except.ok.inj ok ▸ read
  · cases ok

theorem avc_segment_read (mp4 : Mp4Atom) (params : Cmaf.VideoInitParams) (segment : InitSegment)
    (ok : Cmaf.writeAvcInitSegment mp4 params = .ok segment) : SpsRead segment := by
  refine encoded_segment_read mp4 _ segment ?_ ok
  intro hevc same
  cases same

theorem hevc_segment_read (mp4 : Mp4Atom) (params : HevcInitParams) (segment : InitSegment)
    (parsed : parseSps params.sps = .ok params.spsInfo) (ok : Cmaf.writeHevcInitSegment mp4 params = .ok segment) :
    SpsRead segment := by
  refine encoded_segment_read mp4 _ segment ?_ ok
  intro hevc same
  obtain rfl := InitSegment.hevc.inj same
  exact parsed

theorem aac_segment_read (mp4 : Mp4Atom) (params : Cmaf.AudioInitParams) (segment : InitSegment)
    (ok : Cmaf.writeAacInitSegment mp4 params = .ok segment) : SpsRead segment := by
  rw [Cmaf.writeAacInitSegment] at ok
  split at ok
  · cases ok
  · split at ok
    · cases ok
    · split at ok
      · cases ok
      · split at ok
        · cases ok
        · refine encoded_segment_read mp4 _ segment ?_ ok
          intro hevc same
          cases same

theorem opus_segment_read (mp4 : Mp4Atom) (params : Cmaf.OpusInitParams) (segment : InitSegment)
    (ok : Cmaf.writeOpusInitSegment mp4 params = .ok segment) : SpsRead segment := by
  rw [Cmaf.writeOpusInitSegment] at ok
  split at ok
  · cases ok
  · split at ok
    · cases ok
    · refine encoded_segment_read mp4 _ segment ?_ ok
      intro hevc same
      cases same

theorem to_option_ok {Error Value : Type} (result : Except Error Value) (value : Value)
    (some : result.toOption = some value) : result = .ok value := by
  cases result with
  | error error => cases some
  | ok found => rw [Option.some.inj some]

namespace MediaState

theorem video_init_read (mp4 : Mp4Atom) (format : VideoFormat) (state : MediaState) (segment : InitSegment)
    (built : state.videoInit mp4 format = some segment) : SpsRead segment := by
  cases format with
  | avc =>
      rw [videoInit] at built
      split at built
      · exact avc_segment_read mp4 _ segment (to_option_ok _ _ built)
      · cases built
  | hevc =>
      rw [videoInit] at built
      split at built
      · split at built
        · cases built
        · rename_i parsed
          refine hevc_segment_read mp4 _ segment ?_ (to_option_ok _ _ built)
          exact parsed
      · cases built

theorem all_read_video_kept (mp4 : Mp4Atom) (broadcast : String) :
    VideoKept mp4 broadcast fun state => AllRead state.published where
  stores _ _ _ _ read := read
  announces state format segment read built := by
    refine all_read_snoc state.published _ read fun announced same => ?_
    obtain rfl := Option.some.inj same
    exact video_init_read mp4 format state segment built
  emits state _ _ _ _ _ read := all_read_fragment state.published _ _ _ _ _ read

theorem announce_aac_read (mp4 : Mp4Atom) (broadcast : String) (state ready : MediaState) (asc : Bytes) (timescale : Nat)
    (announced : state.announceAac mp4 broadcast asc timescale = some ready) (read : AllRead state.published) :
    AllRead ready.published := by
  obtain ⟨segment, ok, rfl⟩ := Option.map_eq_some_iff.mp announced
  refine all_read_snoc state.published _ read fun told same => ?_
  obtain rfl := Option.some.inj same
  exact aac_segment_read mp4 _ segment (to_option_ok _ _ ok)

theorem emit_all_aac_read (broadcast : String) (dts pts : Nat) (state : MediaState) (frames : List Bytes)
    (read : AllRead state.published) :
    AllRead (frames.foldl (emitAacFrame broadcast dts pts) state).published := by
  induction frames generalizing state with
  | nil => exact read
  | cons frame frames ih => exact ih _ (all_read_fragment state.published _ _ _ _ _ read)

end MediaState

end Lvqr.Ingest

namespace Lvqr.Rtsp

open Cmaf (Mp4Atom)
open Ingest (MediaState AllRead)

theorem ensure_aac_init_read (mp4 : Mp4Atom) (session : Session) (media ready : MediaState)
    (ensured : ensureAacInit mp4 session media = some ready) (read : AllRead media.published) :
    AllRead ready.published := by
  obtain rfl | ⟨asc, clockRate, announced⟩ := ensure_aac_init_cases mp4 session media ready ensured
  · exact read
  · exact MediaState.announce_aac_read mp4 _ media ready asc clockRate announced read

theorem process_rtp_frame_read (mp4 : Mp4Atom) (recording : Option Session) (state : IngestState)
    (frame : InterleavedFrame) (read : AllRead state.media.published) :
    AllRead (processRtpFrame mp4 recording state frame).media.published := by
  have video := MediaState.all_read_video_kept mp4
  rw [processRtpFrame]
  split
  · exact read
  · cases Rtp.parseRtpHeader frame.payload with
    | none => exact read
    | some header =>
        cases recording with
        | none => exact read
        | some session =>
            dsimp only
            cases findMediaTypeForChannel session frame.channel with
            | audio =>
                dsimp only
                rw [processAudioRtp]
                cases Rtp.aacDepacketize (frame.payload.drop header.headerLen) header with
                | none => exact read
                | some result =>
                    dsimp only
                    cases ensured : ensureAacInit mp4 session state.media with
                    | none => exact read
                    | some ready =>
                        have announced := ensure_aac_init_read mp4 session state.media ready ensured read
                        exact MediaState.emit_all_aac_read _ _ _ ready _ announced
            | video =>
                dsimp only
                rw [processVideoRtp]
                dsimp only
                split
                · split
                  · exact read
                  · exact MediaState.process_nalus_keeps (video _) .hevc state.media _ _ _ _ read
                · split
                  · exact read
                  · exact MediaState.process_nalus_keeps (video _) .avc state.media _ _ _ _ read

end Lvqr.Rtsp

namespace Lvqr.Srt

open Cmaf (Mp4Atom)
open Ingest (MediaState AllRead)
open Ts (PesPacket)

theorem ensure_aac_init_read (mp4 : Mp4Atom) (broadcast : String) (state ready : MediaState) (payload : Bytes)
    (ensured : ensureAacInit mp4 broadcast state payload = some ready) (read : AllRead state.published) :
    AllRead ready.published := by
  obtain ⟨_, rfl⟩ | ⟨_, announced⟩ := ensure_aac_init_cases mp4 broadcast state ready payload ensured
  · exact read
  · exact MediaState.announce_aac_read mp4 _ state ready _ _ announced read

theorem process_pes_read (mp4 : Mp4Atom) (broadcast : String) (state : MediaState) (pes : PesPacket)
    (read : AllRead state.published) : AllRead (processPes mp4 broadcast state pes).published := by
  have video := MediaState.all_read_video_kept mp4 broadcast
  rw [processPes]
  cases pes.streamType with
  | h264 => exact MediaState.process_nalus_keeps video .avc state _ _ _ _ read
  | h265 => exact MediaState.process_nalus_keeps video .hevc state _ _ _ _ read
  | scte35 | unknown => exact read
  | aac =>
      dsimp only
      rw [processAac]
      cases ensured : ensureAacInit mp4 broadcast state pes.payload with
      | none => exact read
      | some ready =>
          have announced := ensure_aac_init_read mp4 broadcast state ready pes.payload ensured read
          exact MediaState.emit_all_aac_read _ _ _ ready _ announced

end Lvqr.Srt

namespace Lvqr.Whip

open Cmaf (InitSegment)
open Ingest (AllRead SpsRead)

theorem build_init_read (outside : Outside) (codec : MediaCodec) (annexB : Bytes) (fourcc : String)
    (segment : InitSegment) (built : buildInit outside codec annexB = some (fourcc, segment)) : SpsRead segment := by
  rw [buildInit.eq_def] at built
  cases codec with
  | aac | opus => cases built
  | h264 =>
      dsimp only at built
      rw [buildAvcInit] at built
      split at built
      · dsimp only at built
        split at built
        · cases built
        · rename_i ok
          obtain ⟨rfl, rfl⟩ := Prod.mk.inj (Option.some.inj built)
          exact Ingest.avc_segment_read outside.mp4 _ _ ok
      · cases built
  | h265 =>
      dsimp only at built
      rw [buildHevcInit] at built
      split at built
      · split at built
        · cases built
        · rename_i parsed
          split at built
          · cases built
          · rename_i ok
            obtain ⟨rfl, rfl⟩ := Prod.mk.inj (Option.some.inj built)
            refine Ingest.hevc_segment_read outside.mp4 _ _ ?_ ok
            exact parsed
      · cases built

namespace WhipMoqBridge

theorem ensure_initialized_read (outside : Outside) (bridge ready : WhipMoqBridge) (broadcast : String)
    (sample : IngestSample) (ensured : bridge.ensureInitialized outside broadcast sample = some ready)
    (read : AllRead bridge.published) : AllRead ready.published := by
  obtain ⟨rfl, _⟩ | ⟨fourcc, segment, built, rfl⟩ :=
    ensure_initialized_cases outside bridge ready broadcast sample ensured
  · exact read
  · refine Ingest.all_read_snoc bridge.published _ read fun announced same => ?_
    obtain rfl := Option.some.inj same
    exact build_init_read outside _ _ fourcc segment built

theorem push_sample_read (bridge : WhipMoqBridge) (broadcast : String) (sample : IngestSample)
    (read : AllRead bridge.published) : AllRead (bridge.pushSample broadcast sample).published := by
  rw [pushSample]
  dsimp only
  split
  · exact read
  · split
    · exact read
    · exact Ingest.all_read_fragment bridge.published _ _ _ _ _ read

theorem ensure_audio_initialized_read (outside : Outside) (bridge ready : WhipMoqBridge) (broadcast : String)
    (ensured : bridge.ensureAudioInitialized outside broadcast = some ready) (read : AllRead bridge.published) :
    AllRead ready.published := by
  obtain ⟨state, _, ⟨_, rfl⟩ | ⟨segment, ok, rfl⟩⟩ :=
    ensure_audio_initialized_cases outside bridge ready broadcast ensured
  · exact read
  · refine Ingest.all_read_snoc bridge.published _ read fun announced same => ?_
    obtain rfl := Option.some.inj same
    exact Ingest.opus_segment_read outside.mp4 _ segment ok

theorem push_audio_sample_read (bridge : WhipMoqBridge) (broadcast : String) (sample : IngestAudioSample)
    (read : AllRead bridge.published) : AllRead (bridge.pushAudioSample broadcast sample).published := by
  rw [pushAudioSample]
  split
  · exact read
  · split
    · exact read
    · exact Ingest.all_read_fragment bridge.published _ _ _ _ _ read

theorem apply_read (bridge : WhipMoqBridge) (call : Call) (read : AllRead bridge.published) :
    AllRead (bridge.apply call).published := by
  cases call with
  | disconnect broadcast => exact read
  | sample outside broadcast sample =>
      rw [apply, onSample]
      split
      · exact read
      · split
        · exact read
        · rename_i ready ensured
          exact push_sample_read ready broadcast sample
            (ensure_initialized_read outside bridge ready broadcast sample ensured read)
  | audioSample outside broadcast sample =>
      rw [apply, onAudioSample]
      split
      · exact read
      · split
        · exact read
        · rename_i ready ensured
          exact push_audio_sample_read ready broadcast sample
            (ensure_audio_initialized_read outside bridge ready broadcast ensured read)

end WhipMoqBridge

end Lvqr.Whip

namespace Lvqr.Ingest

open Cmaf (Mp4Atom)
open Codec (parseSps SpsNal SpsSyntax HevcSps)

-- No init segment that is built from the NAL unit has the fields encoded in it.
def NeverAsEncoded (nal : SpsNal) (published : List Publication) : Prop :=
  ∀ publication ∈ published, ∀ params, publication.announced = some (.hevc params) → params.sps = nal.bytes →
    params.spsInfo ≠ nal.sps.fields

theorem all_read_never_as_encoded (nal : SpsNal) (published : List Publication) (read : AllRead published) :
    NeverAsEncoded nal published := by
  intro publication member params announced same encoded
  have parsed := read publication member (.hevc params) announced params rfl
  rw [same, encoded] at parsed
  exact nal.parse_bytes_ne parsed

-- The parser finds the fields behind the header, the ingests call it with the header.
theorem hevc_fields_never_as_encoded (mp4 : Mp4Atom) (broadcast : String) (nal : SpsNal) :
    (nal.sps.Plausible → parseSps nal.payload = .ok nal.sps.fields) ∧
    parseSps nal.bytes ≠ .ok nal.sps.fields ∧
    (∀ frames : List (Option Rtsp.Session × Rtsp.InterleavedFrame), NeverAsEncoded nal
      (Machine.run (fun state (recording, frame) => Rtsp.processRtpFrame mp4 recording state frame)
        Rtsp.IngestState.new frames).media.published) ∧
    (∀ packets : List Ts.PesPacket, NeverAsEncoded nal
      (Machine.run (Srt.processPes mp4 broadcast) MediaState.new packets).published) ∧
    (∀ calls : List Whip.WhipMoqBridge.Call, NeverAsEncoded nal
      (Machine.run Whip.WhipMoqBridge.apply .new calls).published) := by
  refine ⟨nal.parse_payload, nal.parse_bytes_ne, fun frames => ?_, fun packets => ?_, fun calls => ?_⟩
  · have keeps (state : Rtsp.IngestState) (op : Option Rtsp.Session × Rtsp.InterleavedFrame)
        (read : AllRead state.media.published) :
        AllRead (Rtsp.processRtpFrame mp4 op.1 state op.2).media.published :=
      Rtsp.process_rtp_frame_read mp4 op.1 state op.2 read
    exact all_read_never_as_encoded nal _ (Machine.invariant_of_run keeps .new frames all_read_nil)
  · have keeps := Srt.process_pes_read mp4 broadcast
    exact all_read_never_as_encoded nal _ (Machine.invariant_of_run keeps .new packets all_read_nil)
  · have keeps := Whip.WhipMoqBridge.apply_read
    exact all_read_never_as_encoded nal _ (Machine.invariant_of_run keeps .new calls all_read_nil)

-- Main profile, level 3.1, 1280 by 720.
def hdSps : SpsSyntax where
  vpsId := 0
  nesting := true
  ptl := {
    profileSpace := 0
    tier := false
    profileIdc := 1
    compatibility := 0x60000000
    progressive := true
    interlaced := false
    nonPacked := false
    frameOnly := true
    constraints := List.replicate 10 false
    inbld := false
    level := 93
    space_lt := by decide
    idc_lt := by decide
    compatibility_lt := by decide
    constraints_length := rfl
    level_lt := by decide
    level_pos := by decide
  }
  subLayers := []
  spsId := 0
  chromaFormatIdc := 1
  separateColourPlane := false
  width := 1280
  height := 720
  vps_lt := by decide
  few_layers := by decide
  sps_lt := by decide
  chroma_le := by decide

def hdNal : SpsNal where
  sps := hdSps
  first := 0x42
  second := 0x01
  rbsp := [1, 1, 0x60, 0, 0, 0, 0x90, 0, 0, 0, 0, 0, 0x5d, 0xa0, 0x02, 0x80, 0x80, 0x2d, 0x16, 0x59, 0x59, 0xa4, 0x93,
    0x2b, 0xc0]
  is_sps := by decide
  temporal := by decide
  encodes := by decide

def hdPes : Ts.PesPacket :=
  ⟨256, .h265, some 0, none, [0, 0, 1, 0x40, 1, 0x0c, 0, 0, 1] ++ hdNal.bytes ++ [0, 0, 1, 0x44, 1, 0xc1, 0, 0, 1, 0x26, 1, 0xaf]⟩

-- Level 3.1 goes into the init segment as level 0.
theorem hd_level_lost :
    ∃ params, (Machine.run (Srt.processPes (fun _ => true) "live") MediaState.new [hdPes]).published.filterMap
        Publication.announced = [.hevc params] ∧
      params.sps = hdNal.bytes ∧ params.spsInfo.generalLevelIdc = 0 ∧ hdNal.sps.fields.generalLevelIdc = 93 := by
  refine ⟨⟨[0x40, 1, 0x0c], hdNal.bytes, [0x44, 1, 0xc1], ⟨0, false, 1, 16867328, 0, 1, 1280, 720⟩, 90000⟩, ?_⟩
  decide

end Lvqr.Ingest
