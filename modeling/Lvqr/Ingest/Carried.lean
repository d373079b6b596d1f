import Lvqr.Ingest.Stamps
import Lvqr.Lib.Machine
import Lvqr.Rtsp.Tracks
import Lvqr.Srt.AudioClock

set_option autoImplicit false

-- Parameter sets go into the first init segment of a connection and are stripped from
-- every sample.
namespace Lvqr.Ingest

open Cmaf (Mp4Atom InitSegment)
open Codec

inductive SetKind where
  | vps
  | sps
  | pps
deriving DecidableEq, Repr

def VideoFormat.kind (format : VideoFormat) (nal : Bytes) : Option SetKind :=
  match format with
  | .avc => if avcNalType nal = 7 then some .sps else if avcNalType nal = 8 then some .pps else none
  | .hevc =>
      if nal.length < 2 then none
      else if hevcNalType nal = 32 then some .vps
      else if hevcNalType nal = 33 then some .sps
      else if hevcNalType nal = 34 then some .pps
      else none

structure AccessUnit where
  broadcast : String
  format : VideoFormat
  nalus : List Bytes
  dts : Nat
  pts : Nat
  keyframe : Bool
deriving DecidableEq, Repr

namespace AccessUnit

def last (unit : AccessUnit) (kind : SetKind) : Option Bytes :=
  unit.nalus.reverse.find? fun nal => unit.format.kind nal = some kind

-- The NAL units that the payload of its fragment is made of.
def sample (unit : AccessUnit) : List Bytes := unit.nalus.filter fun nal => !nal.isEmpty && !unit.format.skips nal

end AccessUnit

abbrev Latest := String → VideoFormat → SetKind → Option Bytes

def Latest.receive (latest : Latest) (unit : AccessUnit) : Latest := fun broadcast format kind =>
  if broadcast = unit.broadcast ∧ format = unit.format then (unit.last kind).or (latest broadcast format kind)
  else latest broadcast format kind

def parameterSets : InitSegment → List Bytes
  | .avc params => [params.sps, params.pps]
  | .hevc params => [params.vps, params.sps, params.pps]
  | .aac .. | .opus .. => []

def Publication.videoInit (broadcast : String) : Publication → Option InitSegment
  | .init name track _ _ segment => if name = broadcast ∧ track = VIDEO_TRACK then some segment else none
  | .fragment .. => none

-- The parameter sets of the init segment published last on the video track.
def announcedSets (broadcast : String) (published : List Publication) : List Bytes :=
  (((published.filterMap (Publication.videoInit broadcast)).getLast?).map parameterSets).getD []

theorem announced_sets_quiet (broadcast : String) (published more : List Publication)
    (quiet : ∀ publication ∈ more, publication.videoInit broadcast = none) :
    announcedSets broadcast (published ++ more) = announcedSets broadcast published := by
  rw [announcedSets, List.filterMap_append, List.filterMap_eq_nil_iff.mpr quiet, List.append_nil, announcedSets]

theorem announced_sets_init (broadcast name codec : String) (timescale : Nat) (segment : InitSegment)
    (published : List Publication) :
    announcedSets broadcast (published ++ [.init name VIDEO_TRACK codec timescale segment]) =
      if name = broadcast then parameterSets segment else announcedSets broadcast published := by
  by_cases same : name = broadcast
  · simp [announcedSets, Publication.videoInit, same]
  · rw [if_neg same]
    refine announced_sets_quiet broadcast published _ fun publication member => ?_
    rw [List.mem_singleton.mp member, Publication.videoInit, if_neg fun both => same both.1]

theorem kind_skipped (format : VideoFormat) (nal : Bytes) (kind : SetKind) (isSet : format.kind nal = some kind) :
    format.skips nal = true := by
  cases format with
  | avc =>
      rw [VideoFormat.kind] at isSet
      by_cases sps : avcNalType nal = 7
      · simp [VideoFormat.skips, isAvcParameterSet, sps]
      · rw [if_neg sps] at isSet
        by_cases pps : avcNalType nal = 8
        · simp [VideoFormat.skips, isAvcParameterSet, pps]
        · rw [if_neg pps] at isSet
          cases isSet
  | hevc =>
      rw [VideoFormat.kind] at isSet
      by_cases short : nal.length < 2
      · simp [VideoFormat.skips, short]
      · rw [if_neg short] at isSet
        by_cases vps : hevcNalType nal = 32
        · simp [VideoFormat.skips, isHevcParameterSet, vps]
        · rw [if_neg vps] at isSet
          by_cases sps : hevcNalType nal = 33
          · simp [VideoFormat.skips, isHevcParameterSet, sps]
          · rw [if_neg sps] at isSet
            by_cases pps : hevcNalType nal = 34
            · simp [VideoFormat.skips, isHevcParameterSet, pps]
            · rw [if_neg pps] at isSet
              cases isSet

theorem last_kind (unit : AccessUnit) (kind : SetKind) (nal : Bytes) (found : unit.last kind = some nal) :
    unit.format.kind nal = some kind := by
  simpa using List.find?_some found

def Latest.Sorted (latest : Latest) : Prop :=
  ∀ broadcast (format : VideoFormat) kind nal, latest broadcast format kind = some nal → format.kind nal = some kind

theorem receive_sorted (latest : Latest) (unit : AccessUnit) (sorted : latest.Sorted) :
    (latest.receive unit).Sorted := by
  intro broadcast format kind nal found
  rw [Latest.receive] at found
  split at found
  · rename_i here
    rcases Option.or_eq_some_iff.mp found with fresh | ⟨_, old⟩
    · rw [here.2]
      exact last_kind unit kind nal fresh
    · exact sorted broadcast format kind nal old
  · exact sorted broadcast format kind nal found

theorem sample_without_sets (unit : AccessUnit) (kind : SetKind) (nal : Bytes)
    (isSet : unit.format.kind nal = some kind) : nal ∉ unit.sample := by
  intro member
  obtain ⟨_, kept⟩ := List.mem_filter.mp member
  simp [kind_skipped unit.format nal kind isSet] at kept

namespace MediaState

variable (mp4 : Mp4Atom)

def receive (state : MediaState) (unit : AccessUnit) : MediaState :=
  state.processNalus mp4 unit.format unit.broadcast unit.nalus unit.dts unit.pts unit.keyframe

def builds (state : MediaState) (unit : AccessUnit) : Option InitSegment :=
  if state.videoInitEmitted then none else (state.storeAll unit.format unit.nalus).videoInit mp4 unit.format

def sends (state : MediaState) (unit : AccessUnit) : Bool := state.sendsPicture mp4 unit.format unit.nalus

def told (state : MediaState) (unit : AccessUnit) : List Publication :=
  (state.builds mp4 unit).toList.map (.init unit.broadcast VIDEO_TRACK unit.format.codec 90000)

theorem emit_video_published (state : MediaState) (broadcast codec : String) (dts pts : Nat) (keyframe : Bool)
    (payload : Bytes) : ∃ fragment, (state.emitVideoFragment broadcast codec dts pts keyframe payload).published =
      state.published ++ [.fragment broadcast VIDEO_TRACK codec 90000 fragment] := ⟨_, rfl⟩

-- A unit adds the init segment it makes, if any, and then its fragment, if any.
theorem receive_spec (state : MediaState) (unit : AccessUnit) : ∃ sent,
    (state.receive mp4 unit).published = state.published ++ state.told mp4 unit ++ sent ∧
    (state.sends mp4 unit = false → sent = []) ∧
    (state.sends mp4 unit = true →
      ∃ fragment, sent = [.fragment unit.broadcast VIDEO_TRACK unit.format.codec 90000 fragment]) ∧
    (state.receive mp4 unit).videoInitEmitted = (state.videoInitEmitted || (state.builds mp4 unit).isSome) := by
  obtain ⟨sps, pps, vps, kept⟩ := state.store_all_eq unit.format unit.nalus
  have emitted : (state.storeAll unit.format unit.nalus).videoInitEmitted = state.videoInitEmitted := by rw [kept]
  have published : (state.storeAll unit.format unit.nalus).published = state.published := by rw [kept]
  rw [receive, processNalus, ← storeAll, sends, sendsPicture, pictureReady, told, builds]
  simp only [prefixed_is_empty, ensureVideoInit, emitted]
  cases out : state.videoInitEmitted with
  | true =>
      cases picture : unit.format.hasPicture unit.nalus with
      | false => exact ⟨[], by simp [published], by simp, by simp, by simp [emitted, out]⟩
      | true =>
          obtain ⟨fragment, sent⟩ := (state.storeAll unit.format unit.nalus).emit_video_published unit.broadcast
            unit.format.codec unit.dts unit.pts unit.keyframe (nalsToLengthPrefixed unit.nalus unit.format)
          refine ⟨[_], ?_, by simp, fun _ => ⟨fragment, rfl⟩, by simp [emitVideoFragment, publish, emitted, out]⟩
          simp [sent, published]
  | false =>
      cases built : (state.storeAll unit.format unit.nalus).videoInit mp4 unit.format with
      | none => exact ⟨[], by simp [published], by simp, by simp, by simp [emitted, out]⟩
      | some segment =>
          cases picture : unit.format.hasPicture unit.nalus with
          | false => exact ⟨[], by simp [published, publish, VIDEO_TRACK], by simp, by simp, by simp⟩
          | true =>
              let ready : MediaState :=
                { (state.storeAll unit.format unit.nalus).publish
                    (.init unit.broadcast VIDEO_TRACK unit.format.codec 90000 segment) with videoInitEmitted := true }
              obtain ⟨fragment, sent⟩ := ready.emit_video_published unit.broadcast unit.format.codec unit.dts unit.pts
                unit.keyframe (nalsToLengthPrefixed unit.nalus unit.format)
              refine ⟨[_], ?_, by simp, fun _ => ⟨fragment, rfl⟩, by simp [emitVideoFragment, publish]⟩
              refine Eq.trans sent ?_
              simp [ready, published, publish]

end MediaState

-- What a step that receives no access unit leaves alone.
structure VideoUntouched (state next : MediaState) : Prop where
  emitted : next.videoInitEmitted = state.videoInitEmitted
  sets : ∀ broadcast, announcedSets broadcast next.published = announcedSets broadcast state.published

theorem VideoUntouched.refl (state : MediaState) : VideoUntouched state state := ⟨rfl, fun _ => rfl⟩

theorem VideoUntouched.trans {state middle next : MediaState} (first : VideoUntouched state middle)
    (second : VideoUntouched middle next) : VideoUntouched state next :=
  ⟨second.emitted.trans first.emitted, fun broadcast => (second.sets broadcast).trans (first.sets broadcast)⟩

theorem announce_aac_untouched (mp4 : Mp4Atom) (broadcast : String) (state ready : MediaState) (asc : Bytes)
    (timescale : Nat) (announced : state.announceAac mp4 broadcast asc timescale = some ready) :
    VideoUntouched state ready := by
  obtain ⟨segment, _, rfl⟩ := Option.map_eq_some_iff.mp announced
  refine ⟨rfl, fun name => announced_sets_quiet name state.published _ fun publication member => ?_⟩
  have isAudio : ("1.mp4" : String) ≠ VIDEO_TRACK := by decide
  rw [List.mem_singleton.mp member, Publication.videoInit, if_neg fun both => isAudio both.2]

theorem emit_all_aac_untouched (broadcast : String) (dts pts : Nat) (state : MediaState) (frames : List Bytes) :
    VideoUntouched state (frames.foldl (MediaState.emitAacFrame broadcast dts pts) state) := by
  induction frames generalizing state with
  | nil => exact .refl state
  | cons frame frames ih =>
      have emitted : VideoUntouched state (MediaState.emitAacFrame broadcast dts pts state frame) := by
        refine ⟨rfl, fun name => announced_sets_quiet name state.published _ fun publication member => ?_⟩
        rw [List.mem_singleton.mp member]
        rfl
      exact emitted.trans (ih (MediaState.emitAacFrame broadcast dts pts state frame))

-- An ingest as the access units its steps receive.
structure VideoSource (mp4 : Mp4Atom) (State Op : Type) where
  step : State → Op → State
  media : State → MediaState
  unit : State → Op → Option AccessUnit
  receives : ∀ state op received, unit state op = some received →
    media (step state op) = (media state).receive mp4 received
  others : ∀ state op, unit state op = none → VideoUntouched (media state) (media (step state op))

-- Ghost state: the sets received last, and the broadcast and the sets that the first
-- video init segment was made for.
structure Watched (State : Type) where
  state : State
  latest : Latest
  first : Option (String × List Bytes)

namespace VideoSource

variable {mp4 : Mp4Atom} {State Op : Type} (source : VideoSource mp4 State Op)

def start (state : State) : Watched State := ⟨state, fun _ _ _ => none, none⟩

-- The first init segment, which this unit makes if none is out.
def firstWith (watched : Watched State) (unit : AccessUnit) : Option (String × List Bytes) :=
  watched.first.or (((source.media watched.state).builds mp4 unit).map fun segment =>
    (unit.broadcast, parameterSets segment))

def watch (watched : Watched State) (op : Op) : Watched State :=
  let next := source.step watched.state op
  match source.unit watched.state op with
  | none => { watched with state := next }
  | some unit => ⟨next, watched.latest.receive unit, source.firstWith watched unit⟩

def firstSets (broadcast : String) : Option (String × List Bytes) → List Bytes
  | some (name, sets) => if name = broadcast then sets else []
  | none => []

-- Where a step publishes a video fragment, every set received last for its broadcast
-- and codec is in the init segment published last before it or in its own payload.
def Carried (watched : Watched State) (op : Op) : Prop :=
  ∀ unit, source.unit watched.state op = some unit → ∀ told codec timescale fragment,
    (source.media (source.step watched.state op)).published =
      (source.media watched.state).published ++ told ++ [.fragment unit.broadcast VIDEO_TRACK codec timescale fragment] →
    ∀ kind nal, watched.latest.receive unit unit.broadcast unit.format kind = some nal →
      nal ∈ announcedSets unit.broadcast ((source.media watched.state).published ++ told) ∨ nal ∈ unit.sample

-- Where a picture is sent, the sets received last are those of the first init segment.
def Unchanged (watched : Watched State) (op : Op) : Prop :=
  ∀ unit, source.unit watched.state op = some unit → (source.media watched.state).sends mp4 unit = true →
    ∀ kind nal, watched.latest.receive unit unit.broadcast unit.format kind = some nal →
      nal ∈ firstSets unit.broadcast (source.firstWith watched unit)

structure Coherent (watched : Watched State) : Prop where
  sorted : watched.latest.Sorted
  silent : (source.media watched.state).videoInitEmitted = watched.first.isSome
  sets : ∀ broadcast, announcedSets broadcast (source.media watched.state).published = firstSets broadcast watched.first

theorem told_sets (watched : Watched State) (coherent : source.Coherent watched) (unit : AccessUnit) (broadcast : String) :
    announcedSets broadcast ((source.media watched.state).published ++ (source.media watched.state).told mp4 unit) =
      firstSets broadcast (source.firstWith watched unit) := by
  rw [MediaState.told, firstWith]
  cases built : (source.media watched.state).builds mp4 unit with
  | none => simp [coherent.sets]
  | some segment =>
      have notOut : (source.media watched.state).videoInitEmitted = false := by
        rw [MediaState.builds] at built
        split at built
        · cases built
        · rename_i missing
          exact Bool.eq_false_of_not_eq_true missing
      have none : watched.first = none := by
        rw [coherent.silent] at notOut
        exact Option.isSome_eq_false_iff.mp notOut |> Option.isNone_iff_eq_none.mp
      have empty := coherent.sets broadcast
      rw [none] at empty
      simp only [Option.toList_some, List.map_singleton, announced_sets_init, empty, none]
      rfl

theorem watch_coherent (watched : Watched State) (op : Op) (coherent : source.Coherent watched) :
    source.Coherent (source.watch watched op) := by
  rw [watch]
  cases received : source.unit watched.state op with
  | none =>
      have untouched := source.others watched.state op received
      exact ⟨coherent.sorted, untouched.emitted.trans coherent.silent,
        fun broadcast => (untouched.sets broadcast).trans (coherent.sets broadcast)⟩
  | some unit =>
      obtain ⟨sent, published, quiet, single, emitted⟩ := (source.media watched.state).receive_spec mp4 unit
      rw [← source.receives watched.state op unit received] at published emitted
      refine ⟨receive_sorted watched.latest unit coherent.sorted, ?_, fun broadcast => ?_⟩
      · show (source.media (source.step watched.state op)).videoInitEmitted = (source.firstWith watched unit).isSome
        rw [emitted, coherent.silent, firstWith, Option.isSome_or, Option.isSome_map]
      · show announcedSets broadcast (source.media (source.step watched.state op)).published = _
        rw [published, announced_sets_quiet, told_sets source watched coherent]
        intro publication member
        cases sends : (source.media watched.state).sends mp4 unit with
        | false => simp [quiet sends] at member
        | true =>
            obtain ⟨fragment, only⟩ := single sends
            rw [only] at member
            rw [List.mem_singleton.mp member]
            rfl

theorem carried_iff (watched : Watched State) (op : Op) (coherent : source.Coherent watched) :
    source.Carried watched op ↔ source.Unchanged watched op := by
  cases received : source.unit watched.state op with
  | none => simp [Carried, Unchanged, received]
  | some unit =>
      obtain ⟨sent, published, quiet, single, _⟩ := (source.media watched.state).receive_spec mp4 unit
      rw [← source.receives watched.state op unit received] at published
      have sets := told_sets source watched coherent unit unit.broadcast
      constructor
      · intro carried other same sends kind nal found
        rw [received] at same
        cases same
        obtain ⟨fragment, only⟩ := single sends
        rcases carried unit received _ _ _ fragment (only ▸ published) kind nal found with announced | inSample
        · rwa [sets] at announced
        · have isSet := receive_sorted watched.latest unit coherent.sorted _ _ kind nal found
          exact absurd inSample (sample_without_sets unit kind nal isSet)
      · intro unchanged other same told codec timescale fragment grown kind nal found
        rw [received] at same
        cases same
        left
        rw [published, List.append_assoc, List.append_assoc, List.append_cancel_left_eq] at grown
        cases sends : (source.media watched.state).sends mp4 unit with
        | false =>
            rw [quiet sends, List.append_nil] at grown
            have last : Publication.fragment unit.broadcast VIDEO_TRACK codec timescale fragment ∈
                (source.media watched.state).told mp4 unit := by simp [grown]
            obtain ⟨segment, _, isInit⟩ := List.mem_map.mp last
            cases isInit
        | true =>
            obtain ⟨sentFragment, only⟩ := single sends
            rw [only] at grown
            rw [← (List.append_inj' grown rfl).1, sets]
            exact unchanged unit received sends kind nal found

theorem carried_runs_iff (state : State) (ops : List Op) (fresh : source.media state = MediaState.new) :
    Machine.AllSteps source.Carried source.watch (start state) ops ↔
      Machine.AllSteps source.Unchanged source.watch (start state) ops := by
  have coherent : source.Coherent (start state) := by
    refine ⟨?_, ?_, fun broadcast => ?_⟩
    · intro broadcast format kind nal found
      cases found
    · rw [start, fresh]
      rfl
    · rw [start, fresh]
      rfl
  exact Machine.all_steps_iff (carried_iff source)
    (fun watched op coherent _ => watch_coherent source watched op coherent) _ ops coherent

end VideoSource

end Lvqr.Ingest

namespace Lvqr.Srt

open Cmaf (Mp4Atom)
open Codec (splitAnnexB avcNalType)
open Ingest (MediaState AccessUnit VideoSource VideoUntouched)
open Ts (PesPacket)

def accessUnit (broadcast : String) (pes : PesPacket) : Option AccessUnit :=
  let nalus := splitAnnexB pes.payload
  match pes.streamType with
  | .h264 => some ⟨broadcast, .avc, nalus, pesDts pes, pesPts pes, nalus.any fun nal => avcNalType nal == 5⟩
  | .h265 => some ⟨broadcast, .hevc, nalus, pesDts pes, pesPts pes, nalus.any isHevcKeyframe⟩
  | _ => none

theorem process_aac_untouched (mp4 : Mp4Atom) (broadcast : String) (state : MediaState) (pes : PesPacket) :
    VideoUntouched state (processAac mp4 broadcast state pes) := by
  rw [processAac]
  cases ensured : ensureAacInit mp4 broadcast state pes.payload with
  | none => exact .refl state
  | some ready =>
      have frames := Ingest.emit_all_aac_untouched broadcast (pesDts pes) (pesPts pes) ready (adtsFrames pes.payload)
      rcases ensure_aac_init_cases mp4 broadcast state ready pes.payload ensured with ⟨_, rfl⟩ | ⟨_, announced⟩
      · exact frames
      · exact (Ingest.announce_aac_untouched mp4 broadcast state ready _ _ announced).trans frames

def videoSource (mp4 : Mp4Atom) (broadcast : String) : VideoSource mp4 MediaState PesPacket where
  step := processPes mp4 broadcast
  media := id
  unit := fun _ pes => accessUnit broadcast pes
  receives := by
    intro state pes unit received
    rw [accessUnit] at received
    rw [processPes]
    cases stream : pes.streamType with
    | h264 =>
        rw [stream] at received
        cases received
        rfl
    | h265 =>
        rw [stream] at received
        cases received
        rfl
    | aac | scte35 | unknown =>
        rw [stream] at received
        cases received
  others := by
    intro state pes silent
    rw [accessUnit] at silent
    rw [processPes]
    cases stream : pes.streamType with
    | aac => exact process_aac_untouched mp4 broadcast state pes
    | scte35 | unknown => exact .refl state
    | h264 | h265 =>
        rw [stream] at silent
        cases silent

end Lvqr.Srt

namespace Lvqr.Rtsp

open Cmaf (Mp4Atom)
open Ingest (MediaState AccessUnit VideoSource VideoUntouched)
open Rtp (DepackResult RtpHeader parseRtpHeader)

def resultUnit (session : Session) (format : Ingest.VideoFormat) (result : DepackResult) : AccessUnit :=
  ⟨session.broadcast, format, result.nalus, result.timestamp.toNat, result.timestamp.toNat, result.keyframe⟩

def videoUnit (state : IngestState) (session : Session) (rtpPayload : Bytes) (header : RtpHeader) : Option AccessUnit :=
  match videoCodec session with
  | .h265 => (state.hevcDepack.depacketize rtpPayload header).1.map (resultUnit session .hevc)
  | _ => (state.h264Depack.depacketize rtpPayload header).1.map (resultUnit session .avc)

def frameUnit (state : IngestState) (recording : Option Session) (frame : InterleavedFrame) : Option AccessUnit :=
  if frame.channel % 2 ≠ 0 then none
  else
    match parseRtpHeader frame.payload with
    | none => none
    | some header =>
        match recording with
        | none => none
        | some session =>
            match findMediaTypeForChannel session frame.channel with
            | .audio => none
            | .video => videoUnit state session (frame.payload.drop header.headerLen) header

theorem process_audio_untouched (mp4 : Mp4Atom) (state : IngestState) (session : Session) (rtpPayload : Bytes)
    (header : RtpHeader) : VideoUntouched state.media (processAudioRtp mp4 state session rtpPayload header).media := by
  rw [processAudioRtp]
  cases Rtp.aacDepacketize rtpPayload header with
  | none => exact .refl state.media
  | some result =>
      dsimp only
      cases ensured : ensureAacInit mp4 session state.media with
      | none => exact .refl state.media
      | some ready =>
          have frames := Ingest.emit_all_aac_untouched session.broadcast result.timestamp.toNat result.timestamp.toNat
            ready result.frames
          rcases ensure_aac_init_cases mp4 session state.media ready ensured with rfl | ⟨asc, clockRate, announced⟩
          · exact frames
          · exact (Ingest.announce_aac_untouched mp4 session.broadcast state.media ready asc clockRate announced).trans frames

theorem process_video_receives (mp4 : Mp4Atom) (state : IngestState) (session : Session) (rtpPayload : Bytes)
    (header : RtpHeader) : (processVideoRtp mp4 state session rtpPayload header).media =
      match videoUnit state session rtpPayload header with
      | some unit => state.media.receive mp4 unit
      | none => state.media := by
  rw [processVideoRtp, videoUnit]
  cases videoCodec session with
  | h265 =>
      dsimp only
      cases (state.hevcDepack.depacketize rtpPayload header).1 <;> rfl
  | h264 | aac | opus | unknown =>
      dsimp only
      cases (state.h264Depack.depacketize rtpPayload header).1 <;> rfl

-- A step's access unit is received as one; without it the video is left alone.
def Takes (mp4 : Mp4Atom) (before after : MediaState) : Option AccessUnit → Prop
  | some unit => after = before.receive mp4 unit
  | none => VideoUntouched before after

theorem process_frame_receives (mp4 : Mp4Atom) (state : IngestState) (recording : Option Session)
    (frame : InterleavedFrame) :
    Takes mp4 state.media (processRtpFrame mp4 recording state frame).media (frameUnit state recording frame) := by
  rw [processRtpFrame, frameUnit]
  by_cases odd : frame.channel % 2 ≠ 0
  · rw [if_pos odd, if_pos odd]
    exact VideoUntouched.refl state.media
  · rw [if_neg odd, if_neg odd]
    cases parseRtpHeader frame.payload with
    | none => exact VideoUntouched.refl state.media
    | some header =>
        cases recording with
        | none => exact VideoUntouched.refl state.media
        | some session =>
            dsimp only
            cases findMediaTypeForChannel session frame.channel with
            | audio => exact process_audio_untouched mp4 state session _ header
            | video =>
                have taken := process_video_receives mp4 state session (frame.payload.drop header.headerLen) header
                dsimp only
                cases received : videoUnit state session (frame.payload.drop header.headerLen) header with
                | none =>
                    rw [received] at taken
                    dsimp only at taken ⊢
                    rw [taken]
                    exact VideoUntouched.refl state.media
                | some unit =>
                    rw [received] at taken
                    exact taken

def videoSource (mp4 : Mp4Atom) : VideoSource mp4 IngestState (Option Session × InterleavedFrame) where
  step := fun state (recording, frame) => processRtpFrame mp4 recording state frame
  media := IngestState.media
  unit := fun state (recording, frame) => frameUnit state recording frame
  receives := by
    intro state (recording, frame) unit received
    have taken := process_frame_receives mp4 state recording frame
    dsimp only at received ⊢
    rw [received] at taken
    exact taken
  others := by
    intro state (recording, frame) silent
    have taken := process_frame_receives mp4 state recording frame
    dsimp only at silent ⊢
    rw [silent] at taken
    exact taken

end Lvqr.Rtsp

namespace Lvqr.Ingest

open Cmaf (Mp4Atom)
open VideoSource (start)

-- No parameter set is lost in exactly the runs in which the sets do not change behind
-- the first init segment.
theorem parameter_sets_carried_iff (mp4 : Mp4Atom) (broadcast : String) :
    (∀ packets : List Ts.PesPacket,
      Machine.AllSteps (Srt.videoSource mp4 broadcast).Carried (Srt.videoSource mp4 broadcast).watch
          (start MediaState.new) packets ↔
        Machine.AllSteps (Srt.videoSource mp4 broadcast).Unchanged (Srt.videoSource mp4 broadcast).watch
          (start MediaState.new) packets) ∧
    (∀ frames : List (Option Rtsp.Session × Rtsp.InterleavedFrame),
      Machine.AllSteps (Rtsp.videoSource mp4).Carried (Rtsp.videoSource mp4).watch (start Rtsp.IngestState.new) frames ↔
        Machine.AllSteps (Rtsp.videoSource mp4).Unchanged (Rtsp.videoSource mp4).watch (start Rtsp.IngestState.new)
          frames) :=
  ⟨fun packets => (Srt.videoSource mp4 broadcast).carried_runs_iff MediaState.new packets rfl,
    fun frames => (Rtsp.videoSource mp4).carried_runs_iff Rtsp.IngestState.new frames rfl⟩

def firstPes : Ts.PesPacket :=
  ⟨256, .h264, some 0, none, [0, 0, 1, 0x67, 1, 0, 0, 1, 0x68, 1, 0, 0, 1, 0x65, 1]⟩

def changedPes : Ts.PesPacket :=
  ⟨256, .h264, some 3000, none, [0, 0, 1, 0x67, 2, 0, 0, 1, 0x68, 1, 0, 0, 1, 0x65, 2]⟩

-- The second key frame brings a new SPS; the init segment keeps the old one.
theorem changed_sps_lost :
    ¬ Machine.AllSteps (Srt.videoSource (fun _ => true) "live").Carried (Srt.videoSource (fun _ => true) "live").watch
      (start MediaState.new) [firstPes, changedPes] := by
  rintro ⟨_, second, _⟩
  have carried := second ⟨"live", .avc, [[0x67, 2], [0x68, 1], [0x65, 2]], 3000, 3000, true⟩ (by decide) []
    "avc1" 90000 ⟨"0.mp4", 2, 3000, 3000, 3000, .ofKeyframe true, [0, 0, 0, 2, 0x65, 2]⟩ (by decide) .sps [0x67, 2]
    (by decide)
  revert carried
  decide

end Lvqr.Ingest
