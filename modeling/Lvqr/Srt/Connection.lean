import Lvqr.Auth.Provider
import Lvqr.Ingest.Stamps
import Lvqr.Lib.Machine
import Lvqr.Srt.AudioClock

set_option autoImplicit false

-- From the stream id of a connection request to what the connection publishes.
namespace Lvqr.Srt

open Auth (AllowedName AuthContext AuthDecision AuthProvider NamesBroadcast extractSrt parseSrtStreamid streamidGet)
open Cmaf (Mp4Atom)
open Ingest (MediaState)
open Ts (TsDemuxer PesPacket Scte35Section)

-- The fields of a decoded splice section that are read here.
structure SpliceInfo where
  absolutePts : Option Nat
  duration : Option Nat
  eventId : Option Nat
deriving DecidableEq, Repr

-- The mp4 writer and the splice section parser, which may refuse what they are given.
structure Codecs where
  mp4 : Mp4Atom
  parseSpliceInfoSection : Bytes → Option SpliceInfo

def SCTE35_TRACK : String := "scte35"

def processScte35 (codecs : Codecs) (broadcast : String) (state : MediaState) (found : Scte35Section) : MediaState :=
  match codecs.parseSpliceInfoSection found.raw with
  | none => state
  | some info =>
      state.publish (.fragment broadcast SCTE35_TRACK "scte35" 90000 {
        trackId := SCTE35_TRACK
        groupId := info.eventId.getD 0
        dts := info.absolutePts.getD 0
        pts := info.absolutePts.getD 0
        duration := info.duration.getD 0
        flags := .KEYFRAME
        payload := found.raw
      })

structure ConnectionState where
  demux : TsDemuxer
  media : MediaState

namespace ConnectionState

def new : ConnectionState := ⟨.new, .new⟩

-- The packets of a datagram first, then the sections that have queued up.
def receive (codecs : Codecs) (broadcast : String) (state : ConnectionState) (data : Bytes) : ConnectionState :=
  let (pesPackets, fed) := state.demux.feed data
  let (sections, demux) := fed.takeScte35Sections
  let media := pesPackets.foldl (processPes codecs.mp4 broadcast) state.media
  ⟨demux, sections.foldl (processScte35 codecs broadcast) media⟩

end ConnectionState

def targetBroadcast (streamId : Option String) (context : AuthContext) : String :=
  match context with
  | .publish _ _ (some broadcast) => if broadcast = "" then streamId.getD "srt/default" else broadcast
  | _ => streamId.getD "srt/default"

-- What a connection leaves behind: the contexts that the provider allowed and what
-- was published.
structure Served where
  allowed : List AuthContext
  published : List Ingest.Publication

-- Every name something was published under was allowed.
def Served.Authorized (served : Served) : Prop :=
  ∀ publication ∈ served.published, AllowedName served.allowed publication.broadcast

def serve (codecs : Codecs) (check : AuthProvider) (streamId : Option String) (datagrams : List Bytes) : Served :=
  let context := extractSrt (streamId.getD "")
  let broadcast := targetBroadcast streamId context
  match check context with
  | .deny _ => ⟨[], []⟩
  | .allow => ⟨[context], (Machine.run (ConnectionState.receive codecs broadcast) .new datagrams).media.published⟩

-- The fallback is taken exactly if the context names nothing or the empty name, and
-- is not empty itself where the stream id has an `r` value.
theorem extract_srt_names_iff (streamId : Option String) :
    (extractSrt (streamId.getD "")).Names (targetBroadcast streamId (extractSrt (streamId.getD ""))) ↔
      NamesBroadcast (streamId.getD "") := by
  rw [extractSrt, Auth.publish_names_iff, NamesBroadcast]
  cases named : streamidGet (parseSrtStreamid (streamId.getD "")) "r" with
  | none => simp
  | some broadcast =>
      dsimp only [targetBroadcast]
      by_cases empty : broadcast = ""
      · subst empty
        rw [if_pos rfl]
        constructor
        · intro same
          have nothing : streamId.getD "" = "" := by
            cases streamId with
            | none => rfl
            | some text => exact (Option.some.inj same).symm
          rw [nothing] at named
          have none : streamidGet (parseSrtStreamid "") "r" = none := by decide
          rw [none] at named
          cases named
        · rintro ⟨other, found, notEmpty⟩
          exact absurd (Option.some.inj found).symm notEmpty
      · rw [if_neg empty]
        exact ⟨fun _ => ⟨broadcast, rfl, empty⟩, fun _ => rfl⟩

theorem ensure_aac_init_publishes (mp4 : Mp4Atom) (broadcast : String) (state ready : MediaState) (payload : Bytes)
    (ensured : ensureAacInit mp4 broadcast state payload = some ready) :
    MediaState.PublishesUnder broadcast state ready := by
  obtain ⟨_, rfl⟩ | ⟨_, announced⟩ := ensure_aac_init_cases mp4 broadcast state ready payload ensured
  · exact .refl broadcast ready
  · exact MediaState.announce_aac_publishes mp4 broadcast state ready _ _ announced

theorem process_pes_publishes (mp4 : Mp4Atom) (broadcast : String) (state : MediaState) (pes : PesPacket) :
    MediaState.PublishesUnder broadcast state (processPes mp4 broadcast state pes) := by
  rw [processPes]
  cases pes.streamType with
  | h264 => exact state.process_nalus_publishes mp4 .avc broadcast _ _ _ _
  | h265 => exact state.process_nalus_publishes mp4 .hevc broadcast _ _ _ _
  | scte35 | unknown => exact .refl broadcast state
  | aac =>
      dsimp only
      rw [processAac]
      cases ensured : ensureAacInit mp4 broadcast state pes.payload with
      | none => exact .refl broadcast state
      | some ready =>
          exact (ensure_aac_init_publishes mp4 broadcast state ready pes.payload ensured).trans
            (MediaState.emit_all_aac_publishes broadcast _ _ ready _)

theorem process_scte35_publishes (codecs : Codecs) (broadcast : String) (state : MediaState) (found : Scte35Section) :
    MediaState.PublishesUnder broadcast state (processScte35 codecs broadcast state found) := by
  rw [processScte35]
  split
  · exact .refl broadcast state
  · exact .single _ rfl rfl

theorem receive_publishes (codecs : Codecs) (broadcast : String) (state : ConnectionState) (data : Bytes) :
    MediaState.PublishesUnder broadcast state.media (state.receive codecs broadcast data).media := by
  rw [ConnectionState.receive]
  have media : ∀ packets, MediaState.PublishesUnder broadcast state.media
      (Machine.run (processPes codecs.mp4 broadcast) state.media packets) := fun packets =>
    Machine.invariant_of_run (fun before pes under => under.trans (process_pes_publishes codecs.mp4 broadcast before pes))
      state.media packets (.refl broadcast state.media)
  have sections : ∀ start found, MediaState.PublishesUnder broadcast start
      (Machine.run (processScte35 codecs broadcast) start found) := fun start found =>
    Machine.invariant_of_run (fun before one under => under.trans (process_scte35_publishes codecs broadcast before one))
      start found (.refl broadcast start)
  exact (media _).trans (sections _ _)

theorem received_under (codecs : Codecs) (broadcast : String) (datagrams : List Bytes) :
    ∀ publication ∈ (Machine.run (ConnectionState.receive codecs broadcast) .new datagrams).media.published,
      publication.broadcast = broadcast := by
  have keeps : ∀ (state : ConnectionState) (data : Bytes),
      (∀ publication ∈ state.media.published, publication.broadcast = broadcast) →
      ∀ publication ∈ (state.receive codecs broadcast data).media.published, publication.broadcast = broadcast :=
    fun state data before => (receive_publishes codecs broadcast state data).all (· = broadcast) rfl before
  exact Machine.invariant_of_run keeps .new datagrams (by simp [ConnectionState.new, MediaState.new])

end Lvqr.Srt
