import Lvqr.Auth.Provider
import Lvqr.Ingest.Stamps
import Lvqr.Lib.Machine
import Lvqr.Rtsp.Tracks
import Lvqr.Rtsp.Requests

set_option autoImplicit false

-- One connection with its requests, its auth gate and its media.
namespace Lvqr.Rtsp

open Auth (AllowedName AuthContext AuthProvider extractRtsp)
open Cmaf (Mp4Atom)
open Ingest (MediaState)
open Rtp (RtpHeader parseRtpHeader)

-- `allowed` is ghost state: the contexts that the provider allowed.
structure Publisher where
  conn : ConnectionState
  ingest : IngestState
  allowed : List AuthContext

-- The provider comes with the request, since its answers may change over time.
inductive Input where
  | request (check : AuthProvider) (surroundings : Surroundings) (request : Request)
  | frame (firstKey : SessionId) (frame : InterleavedFrame)

def publishContext (request : Request) : AuthContext :=
  extractRtsp (extractBroadcast request.uri) (request.headers.get "Authorization")

def publishes (request : Request) : Bool := request.method = .announce || request.method = .record

-- The recording session that an iteration over the map meets first.
def recordingSession (conn : ConnectionState) (firstKey : SessionId) : Option Session :=
  let recording := conn.sessions.entries.filter fun entry => entry.2.state = .recording
  ((recording.find? fun entry => entry.1 = firstKey).or recording.head?).map fun entry => entry.2

namespace Publisher

def new : Publisher := ⟨.new, .new, []⟩

def step (mp4 : Mp4Atom) (state : Publisher) : Input → Publisher
  | .request check surroundings request =>
      let passes : Bool := check (publishContext request) = .allow
      { state with
        conn := (handleRequest state.conn { surroundings with allowed := passes } request).1
        allowed := if publishes request && passes then publishContext request :: state.allowed else state.allowed }
  | .frame firstKey frame =>
      { state with ingest := processRtpFrame mp4 (recordingSession state.conn firstKey) state.ingest frame }

end Publisher

theorem recording_session_found (conn : ConnectionState) (firstKey : SessionId) (session : Session)
    (recording : recordingSession conn firstKey = some session) :
    session.state = .recording ∧ ∃ id, conn.sessions.lookup id = some session := by
  obtain ⟨entry, chosen, rfl⟩ := Option.map_eq_some_iff.mp recording
  have listed : entry ∈ conn.sessions.entries.filter fun entry => entry.2.state = .recording := by
    rcases Option.or_eq_some_iff.mp chosen with first | ⟨_, head⟩
    · exact List.mem_of_find?_eq_some first
    · exact List.mem_of_head? head
  obtain ⟨member, isRecording⟩ := List.mem_filter.mp listed
  exact ⟨of_decide_eq_true isRecording, entry.1, AList.mem_lookup_iff.mpr member⟩

theorem ensure_aac_init_publishes (mp4 : Mp4Atom) (session : Session) (media ready : MediaState)
    (ensured : ensureAacInit mp4 session media = some ready) :
    MediaState.PublishesUnder session.broadcast media ready := by
  obtain rfl | ⟨asc, clockRate, announced⟩ := ensure_aac_init_cases mp4 session media ready ensured
  · exact .refl _ ready
  · exact MediaState.announce_aac_publishes mp4 _ media ready asc clockRate announced

theorem process_audio_publishes (mp4 : Mp4Atom) (state : IngestState) (session : Session) (rtpPayload : Bytes)
    (header : RtpHeader) : MediaState.PublishesUnder session.broadcast state.media
      (processAudioRtp mp4 state session rtpPayload header).media := by
  rw [processAudioRtp]
  split
  · exact .refl _ _
  · rename_i result _
    split
    · exact .refl _ _
    · rename_i ready ensured
      exact (ensure_aac_init_publishes mp4 session state.media ready ensured).trans
        (MediaState.emit_all_aac_publishes _ _ _ ready _)

theorem process_video_publishes (mp4 : Mp4Atom) (state : IngestState) (session : Session) (rtpPayload : Bytes)
    (header : RtpHeader) : MediaState.PublishesUnder session.broadcast state.media
      (processVideoRtp mp4 state session rtpPayload header).media := by
  rw [processVideoRtp]
  split
  · dsimp only
    split
    · exact .refl _ _
    · exact state.media.process_nalus_publishes mp4 .hevc _ _ _ _ _
  · dsimp only
    split
    · exact .refl _ _
    · exact state.media.process_nalus_publishes mp4 .avc _ _ _ _ _

-- A frame is published under the broadcast of the recording session, or not at all.
theorem process_rtp_frame_publishes (mp4 : Mp4Atom) (recording : Option Session) (state : IngestState)
    (frame : InterleavedFrame) :
    (processRtpFrame mp4 recording state frame).media = state.media ∨ ∃ session ∈ recording,
      MediaState.PublishesUnder session.broadcast state.media (processRtpFrame mp4 recording state frame).media := by
  rw [processRtpFrame]
  split
  · exact .inl rfl
  · split
    · exact .inl rfl
    · rename_i header _
      cases recording with
      | none => exact .inl rfl
      | some session =>
          refine .inr ⟨session, rfl, ?_⟩
          dsimp only
          split
          · exact process_audio_publishes mp4 state session _ header
          · exact process_video_publishes mp4 state session _ header

-- Only an ingest session records, and the broadcast of an ingest session was allowed.
structure Gated (Allowed : String → Prop) (conn : ConnectionState) : Prop where
  allowed : ∀ id session, conn.sessions.lookup id = some session → session.mode = .ingest → Allowed session.broadcast
  ingests : ∀ id session, conn.sessions.lookup id = some session → session.state = .recording → session.mode = .ingest

namespace Gated

open ConnectionState (Follows RequestKept acceptedFor)

variable {Allowed : String → Prop} {conn : ConnectionState}

theorem mono {Wider : String → Prop} (wider : ∀ broadcast, Allowed broadcast → Wider broadcast)
    (gated : Gated Allowed conn) : Gated Wider conn :=
  ⟨fun id session found ingest => wider _ (gated.allowed id session found ingest), gated.ingests⟩

theorem remove (gated : Gated Allowed conn) (id : SessionId) : Gated Allowed (conn.removeSession id) := by
  rw [ConnectionState.removeSession]
  split
  · exact gated
  · exact ⟨fun other session found => gated.allowed other session (Table.erase_cases found).2,
      fun other session found => gated.ingests other session (Table.erase_cases found).2⟩

theorem insert (gated : Gated Allowed conn) (session : Session) (isNew : session.state = .init)
    (allowed : session.mode = .ingest → Allowed session.broadcast) : Gated Allowed (conn.insertSession session) := by
  have cleared := gated.remove session.id
  rw [ConnectionState.insertSession]
  generalize conn.removeSession session.id = conn at cleared
  constructor
  · intro other value found ingest
    rcases Table.insert_cases found with ⟨_, rfl⟩ | ⟨_, old⟩
    · exact allowed ingest
    · exact cleared.allowed other value old ingest
  · intro other value found recording
    rcases Table.insert_cases found with ⟨_, rfl⟩ | ⟨_, old⟩
    · rw [isNew] at recording
      cases recording
    · exact cleared.ingests other value old recording

theorem update (gated : Gated Allowed conn) (id : SessionId) (old session : Session) (accepted : Accepted)
    (here : conn.sessions.lookup id = some old) (follows : Follows old session accepted) :
    Gated Allowed (conn.updateSession id session accepted) := by
  constructor
  · intro other value found ingest
    rcases Table.insert_cases found with ⟨_, rfl⟩ | ⟨_, before⟩
    · rw [follows.broadcast]
      exact gated.allowed id old here (follows.mode ▸ ingest)
    · exact gated.allowed other value before ingest
  · intro other value found recording
    rcases Table.insert_cases found with ⟨_, rfl⟩ | ⟨_, before⟩
    · exact follows.records (follows.state.symm.trans (by rw [recording, acceptedFor]))
    · exact gated.ingests other value before recording

theorem kept (surroundings : Surroundings) (request : Request)
    (gate : request.method = .announce → surroundings.allowed = true → Allowed (extractBroadcast request.uri)) :
    RequestKept surroundings request (Gated Allowed) where
  announces _ _ announce passed gated := gated.insert _ rfl fun _ => gate announce passed
  opens _ gated := gated.insert _ rfl (by simp [Session.new])
  updates _ id old session accepted gated here follows := gated.update id old session accepted here follows
  removes _ id gated := gated.remove id
  drains _ _ gated := ⟨gated.allowed, gated.ingests⟩

end Gated

namespace Publisher

-- Every name something was published under was allowed.
def Authorized (state : Publisher) : Prop :=
  ∀ publication ∈ state.ingest.media.published, AllowedName state.allowed publication.broadcast

-- What the connection published and what it may publish.
structure Sound (state : Publisher) : Prop where
  gated : Gated (AllowedName state.allowed) state.conn
  published : state.Authorized

theorem new_sound : new.Sound where
  gated := ⟨by simp [new, ConnectionState.new], by simp [new, ConnectionState.new]⟩
  published := by simp [Authorized, new, IngestState.new, MediaState.new]

theorem request_sound (mp4 : Mp4Atom) (state : Publisher) (check : AuthProvider) (surroundings : Surroundings)
    (request : Request) (sound : state.Sound) :
    (state.step mp4 (.request check surroundings request)).Sound := by
  have wider (broadcast : String) (before : AllowedName state.allowed broadcast) :
      AllowedName (state.step mp4 (.request check surroundings request)).allowed broadcast := by
    obtain ⟨context, member, names⟩ := before
    refine ⟨context, ?_, names⟩
    dsimp only [step]
    split
    · exact List.mem_cons_of_mem _ member
    · exact member
  constructor
  · refine ConnectionState.request_keeps (Gated.kept _ request ?_) state.conn (sound.gated.mono wider)
    intro announce passed
    refine ⟨publishContext request, ?_, Auth.extract_rtsp_names _ _⟩
    dsimp only [step] at passed ⊢
    rw [passed, publishes, announce]
    exact List.mem_cons_self
  · intro publication member
    exact wider _ (sound.published publication member)

theorem frame_sound (mp4 : Mp4Atom) (state : Publisher) (firstKey : SessionId) (frame : InterleavedFrame)
    (sound : state.Sound) : (state.step mp4 (.frame firstKey frame)).Sound := by
  refine ⟨sound.gated, ?_⟩
  rcases process_rtp_frame_publishes mp4 (recordingSession state.conn firstKey) state.ingest frame with
    same | ⟨session, recording, under⟩
  · rw [Authorized, step, same]
    exact sound.published
  · obtain ⟨isRecording, id, found⟩ := recording_session_found state.conn firstKey session recording
    have ingests := sound.gated.ingests id session found isRecording
    exact under.all _ (sound.gated.allowed id session found ingests) sound.published

theorem step_sound (mp4 : Mp4Atom) (state : Publisher) (input : Input) (sound : state.Sound) :
    (state.step mp4 input).Sound := by
  cases input with
  | request check surroundings request => exact request_sound mp4 state check surroundings request sound
  | frame firstKey frame => exact frame_sound mp4 state firstKey frame sound

-- Whatever a client asks for and sends, its session records nothing that its
-- ANNOUNCE was not allowed to.
theorem run_authorized (mp4 : Mp4Atom) (inputs : List Input) : (Machine.run (step mp4) new inputs).Authorized :=
  (Machine.invariant_of_run (step_sound mp4) new inputs new_sound).published

end Publisher

end Lvqr.Rtsp
