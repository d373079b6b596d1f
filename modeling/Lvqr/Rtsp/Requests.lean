import Lvqr.Events
import Lvqr.Rtsp.Proto
import Lvqr.Rtsp.Session

set_option autoImplicit false

-- The request handlers of one connection and its table of sessions.
namespace Lvqr.Rtsp

inductive VideoInit where
  | avc
  | hevc
  | other
deriving DecidableEq, Repr

inductive AudioInit where
  | aac
  | opus
  | other
deriving DecidableEq, Repr

-- What the handlers read outside the connection: the answers of the cluster
-- resolver and the auth provider, the clock as an id, the key an iteration over the
-- session map meets first, and what the registry holds of the broadcast.
structure Surroundings where
  redirect : Option String
  localKnown : Bool
  allowed : Bool
  freshId : SessionId
  firstKey : SessionId
  videoInit : Option VideoInit
  audioInit : Option AudioInit
  sdp : Bytes
deriving DecidableEq, Repr

inductive DrainKind where
  | h264
  | hevc
  | aac
  | opus
deriving DecidableEq, Repr

structure PlayDrain where
  kind : DrainKind
  broadcast : String
  channels : Nat × Nat
deriving DecidableEq, Repr

inductive Accepted where
  | created
  | setup
  | play
  | record
  | removed
deriving DecidableEq, Repr

structure HistoryEntry where
  serial : Nat
  broadcast : String
  accepted : Accepted
deriving DecidableEq, Repr

-- `created` and `history` are ghost state: how many sessions there have been and
-- what was accepted for each, the newest first.
structure ConnectionState where
  sessions : Table SessionId Session
  drains : List PlayDrain
  created : Nat
  history : List HistoryEntry

namespace ConnectionState

def new : ConnectionState := ⟨∅, [], 0, []⟩

def note (conn : ConnectionState) (session : Session) (accepted : Accepted) : ConnectionState :=
  { conn with history := ⟨session.serial, session.broadcast, accepted⟩ :: conn.history }

def removeSession (conn : ConnectionState) (id : SessionId) : ConnectionState :=
  match conn.sessions.lookup id with
  | none => conn
  | some session => { conn with sessions := conn.sessions.erase id }.note session .removed

-- An insertion drops the session that had the id.
def insertSession (conn : ConnectionState) (session : Session) : ConnectionState :=
  let conn := conn.removeSession session.id
  let session := { session with serial := conn.created }
  { conn with sessions := conn.sessions.insert session.id session, created := conn.created + 1 }.note session .created

def updateSession (conn : ConnectionState) (id : SessionId) (session : Session) (accepted : Accepted) :
    ConnectionState :=
  { conn with sessions := conn.sessions.insert id session }.note session accepted

end ConnectionState

def uriPath (uri : String) : List Char :=
  match Text.stripPrefix "rtsp://".toList uri.toList with
  | some rest => (rest.dropWhile (· ≠ '/')).drop 1
  | none => uri.toList.dropWhile (· = '/')

-- A third path component names the track.
def extractBroadcast (uri : String) : String :=
  let path := uriPath uri
  let parts := path.splitOn '/'
  if 2 < parts.length then String.ofList (['/'].intercalate parts.dropLast) else String.ofList path

def extractTrackControl (uri : String) : String :=
  String.ofList (((uriPath uri).splitOn '/').getLastD [])

def SUPPORTED_METHODS : String := "OPTIONS, DESCRIBE, ANNOUNCE, SETUP, PLAY, RECORD, TEARDOWN, GET_PARAMETER"

def handleOptions (cseq : Nat) : Response := (Response.ok.withCseq cseq).withHeader "Public" SUPPORTED_METHODS

def handleDescribe (surroundings : Surroundings) (request : Request) (cseq : Nat) : Response :=
  ((Response.ok.withCseq cseq).withHeader "Content-Base" request.uri).withBody "application/sdp" surroundings.sdp

def handleAnnounce (conn : ConnectionState) (surroundings : Surroundings) (request : Request) (cseq : Nat) :
    ConnectionState × Response :=
  let tracks := parseSdpTracks ((Utf8.decode request.body).getD [])
  let session := { Session.new surroundings.freshId .ingest (extractBroadcast request.uri) with tracks := tracks }
  (conn.insertSession session, (Response.ok.withCseq cseq).withHeader "Session" surroundings.freshId)

-- The first key is whichever the map's order gives.
def firstSession (conn : ConnectionState) (surroundings : Surroundings) : Option SessionId :=
  if surroundings.firstKey ∈ conn.sessions then some surroundings.firstKey else conn.sessions.keys.head?

-- SETUP without an ANNOUNCE makes a playback session.
def setupSession (conn : ConnectionState) (surroundings : Surroundings) (request : Request) :
    ConnectionState × SessionId :=
  match request.sessionId with
  | some id => (conn, id)
  | none =>
      match firstSession conn surroundings with
      | some id => (conn, id)
      | none =>
          let id := surroundings.freshId
          (conn.insertSession (Session.new id .playback (extractBroadcast request.uri)), id)

def handleSetup (conn : ConnectionState) (surroundings : Surroundings) (request : Request) (cseq : Nat) :
    ConnectionState × Response :=
  let control := extractTrackControl request.uri
  let transport := parseTransport ((request.headers.get "Transport").getD "")
  let (conn, id) := setupSession conn surroundings request
  match conn.sessions.lookup id with
  | none => (conn, Response.sessionNotFound.withCseq cseq)
  | some session =>
      let channels := transport.interleaved.getD (0, 1)
      let conn := conn.updateSession id (session.setupTrack control (some channels)) .setup
      let granted := "RTP/AVP/TCP;unicast;interleaved=" ++ toString channels.1 ++ "-" ++ toString channels.2
      (conn, ((Response.ok.withCseq cseq).withHeader "Session" (id ++ ";timeout=60")).withHeader "Transport" granted)

def interleavedOf (session : Session) (control : String) : Option (Nat × Nat) :=
  (session.transports.lookup control).bind TrackTransport.interleaved

-- A session with one transport of another name plays video on it.
def videoChannels (session : Session) : Option (Nat × Nat) :=
  match interleavedOf session "track1" with
  | some channels => some channels
  | none =>
      if session.transports.keys.length = 1 ∧ "track2" ∉ session.transports then
        session.transports.entries.findSome? fun entry => entry.2.interleaved
      else none

def playDrains (surroundings : Surroundings) (session : Session) : List PlayDrain :=
  let video := (videoChannels session).map fun channels =>
    { kind := if surroundings.videoInit = some .hevc then .hevc else .h264
      broadcast := session.broadcast
      channels := channels }
  let audio := (interleavedOf session "track2").map fun channels =>
    { kind := if surroundings.audioInit = some .opus then .opus else .aac
      broadcast := session.broadcast
      channels := channels }
  video.toList ++ audio.toList

-- The session is playing also when the codec turns out not to be served.
def handlePlay (conn : ConnectionState) (surroundings : Surroundings) (request : Request) (cseq : Nat) :
    ConnectionState × Response :=
  match request.sessionId with
  | none => (conn, Response.sessionNotFound.withCseq cseq)
  | some id =>
      match conn.sessions.lookup id with
      | none => (conn, Response.sessionNotFound.withCseq cseq)
      | some session =>
          match session.play with
          | .error _ => (conn, Response.methodNotAllowed.withCseq cseq)
          | .ok session =>
              let conn := conn.updateSession id session .play
              if (videoChannels session).isSome ∧ surroundings.videoInit = some .other ∨
                  (interleavedOf session "track2").isSome ∧ surroundings.audioInit = some .other then
                (conn, (Response.unsupportedMediaType.withCseq cseq).withHeader "Session" id)
              else
                ({ conn with drains := conn.drains ++ playDrains surroundings session },
                  (Response.ok.withCseq cseq).withHeader "Session" id)

def handleRecord (conn : ConnectionState) (request : Request) (cseq : Nat) : ConnectionState × Response :=
  match request.sessionId with
  | none => (conn, Response.sessionNotFound.withCseq cseq)
  | some id =>
      match conn.sessions.lookup id with
      | none => (conn, Response.sessionNotFound.withCseq cseq)
      | some session =>
          match session.record with
          | .error _ => (conn, Response.methodNotAllowed.withCseq cseq)
          | .ok session => (conn.updateSession id session .record, (Response.ok.withCseq cseq).withHeader "Session" id)

def handleTeardown (conn : ConnectionState) (request : Request) (cseq : Nat) : ConnectionState × Response :=
  match request.sessionId with
  | none => (conn, Response.sessionNotFound.withCseq cseq)
  | some id => (conn.removeSession id, (Response.ok.withCseq cseq).withHeader "Session" id)

def trimTrailingSlashes (base : String) : String :=
  String.ofList (base.toList.reverse.dropWhile (· = '/')).reverse

def dispatch (conn : ConnectionState) (surroundings : Surroundings) (request : Request) (cseq : Nat) :
    ConnectionState × Response :=
  match request.method with
  | .options => (conn, handleOptions cseq)
  | .describe => (conn, handleDescribe surroundings request cseq)
  | .announce => handleAnnounce conn surroundings request cseq
  | .setup => handleSetup conn surroundings request cseq
  | .play => handlePlay conn surroundings request cseq
  | .record => handleRecord conn request cseq
  | .teardown => handleTeardown conn request cseq
  | .getParameter => (conn, Response.ok.withCseq cseq)
  | .pause | .setParameter => (conn, Response.methodNotAllowed.withCseq cseq)

-- The resolver is asked where no local publisher is known, the auth provider at the
-- publish entry points.
def handleRequest (conn : ConnectionState) (surroundings : Surroundings) (request : Request) :
    ConnectionState × Response :=
  let cseq := request.cseq.getD 0
  let subscribes := request.method = .describe ∨ request.method = .play
  let publishes := request.method = .announce ∨ request.method = .record
  match surroundings.redirect with
  | some base =>
      if subscribes ∧ ¬ surroundings.localKnown then
        (conn, (Response.found (trimTrailingSlashes base ++ "/" ++ extractBroadcast request.uri)).withCseq cseq)
      else if publishes ∧ ¬ surroundings.allowed then (conn, Response.unauthorized.withCseq cseq)
      else dispatch conn surroundings request cseq
  | none =>
      if publishes ∧ ¬ surroundings.allowed then (conn, Response.unauthorized.withCseq cseq)
      else dispatch conn surroundings request cseq

end Lvqr.Rtsp

-- What one request can do to the sessions of a connection.
namespace Lvqr.Rtsp.ConnectionState

def acceptedFor : SessionState → Accepted
  | .init => .created
  | .ready => .setup
  | .playing => .play
  | .recording => .record

-- What a handler may make of a session it found.
structure Follows (old session : Session) (accepted : Accepted) : Prop where
  serial : session.serial = old.serial
  broadcast : session.broadcast = old.broadcast
  mode : session.mode = old.mode
  state : acceptedFor session.state = accepted
  records : accepted = .record → session.mode = .ingest
  plays : session.state = .playing → session.mode = .playback

theorem setup_follows (session : Session) (control : String) (interleaved : Option (Nat × Nat)) :
    Follows session (session.setupTrack control interleaved) .setup :=
  ⟨rfl, rfl, rfl, rfl, by simp, by simp [Session.setupTrack]⟩

theorem play_follows (session next : Session) (played : session.play = .ok next) : Follows session next .play := by
  obtain ⟨mode, rfl⟩ := session.play_ok next played
  exact ⟨rfl, rfl, rfl, rfl, by simp, fun _ => mode⟩

theorem record_follows (session next : Session) (recorded : session.record = .ok next) :
    Follows session next .record := by
  obtain ⟨mode, rfl⟩ := session.record_ok next recorded
  exact ⟨rfl, rfl, rfl, rfl, fun _ => mode, by simp⟩

-- A property of the connection that the session operations leave alone. Only an
-- ANNOUNCE that the auth provider allowed opens an ingest session.
structure RequestKept (surroundings : Surroundings) (request : Request) (Inv : ConnectionState → Prop) : Prop where
  announces : ∀ (conn : ConnectionState) (tracks : List TrackInfo), request.method = .announce →
    surroundings.allowed = true → Inv conn → Inv (conn.insertSession
      { Session.new surroundings.freshId .ingest (extractBroadcast request.uri) with tracks := tracks })
  opens : ∀ conn : ConnectionState, Inv conn →
    Inv (conn.insertSession (Session.new surroundings.freshId .playback (extractBroadcast request.uri)))
  updates : ∀ (conn : ConnectionState) (id : SessionId) (old session : Session) (accepted : Accepted), Inv conn →
    conn.sessions.lookup id = some old → Follows old session accepted → Inv (conn.updateSession id session accepted)
  removes : ∀ (conn : ConnectionState) (id : SessionId), Inv conn → Inv (conn.removeSession id)
  drains : ∀ (conn : ConnectionState) (drains : List PlayDrain), Inv conn → Inv { conn with drains := drains }

variable {surroundings : Surroundings} {request : Request} {Inv : ConnectionState → Prop}

theorem setup_keeps (kept : RequestKept surroundings request Inv) (conn : ConnectionState) (cseq : Nat)
    (held : Inv conn) : Inv (handleSetup conn surroundings request cseq).1 := by
  have chosen : Inv (setupSession conn surroundings request).1 := by
    rw [setupSession]
    split
    · exact held
    · split
      · exact held
      · exact kept.opens conn held
  simp only [handleSetup]
  split
  · exact chosen
  · rename_i session here
    exact kept.updates _ _ session _ _ chosen here (setup_follows session _ _)

theorem play_keeps (kept : RequestKept surroundings request Inv) (conn : ConnectionState) (cseq : Nat)
    (held : Inv conn) : Inv (handlePlay conn surroundings request cseq).1 := by
  rw [handlePlay]
  split
  · exact held
  · split
    · exact held
    · rename_i session here
      split
      · exact held
      · rename_i next played
        have updated := kept.updates conn _ session next _ held here (play_follows session next played)
        dsimp only
        split
        · exact updated
        · exact kept.drains _ _ updated

theorem record_keeps (kept : RequestKept surroundings request Inv) (conn : ConnectionState) (cseq : Nat)
    (held : Inv conn) : Inv (handleRecord conn request cseq).1 := by
  rw [handleRecord]
  split
  · exact held
  · split
    · exact held
    · rename_i session here
      split
      · exact held
      · rename_i next recorded
        exact kept.updates conn _ session next _ held here (record_follows session next recorded)

theorem teardown_keeps (kept : RequestKept surroundings request Inv) (conn : ConnectionState) (cseq : Nat)
    (held : Inv conn) : Inv (handleTeardown conn request cseq).1 := by
  rw [handleTeardown]
  split
  · exact held
  · exact kept.removes conn _ held

theorem dispatch_keeps (kept : RequestKept surroundings request Inv) (conn : ConnectionState) (cseq : Nat)
    (gated : request.method = .announce → surroundings.allowed = true) (held : Inv conn) :
    Inv (dispatch conn surroundings request cseq).1 := by
  rw [dispatch]
  split
  · exact held
  · exact held
  · rename_i announce
    exact kept.announces conn _ announce (gated announce) held
  · exact setup_keeps kept conn cseq held
  · exact play_keeps kept conn cseq held
  · exact record_keeps kept conn cseq held
  · exact teardown_keeps kept conn cseq held
  · exact held
  · exact held
  · exact held

theorem request_keeps (kept : RequestKept surroundings request Inv) (conn : ConnectionState) (held : Inv conn) :
    Inv (handleRequest conn surroundings request).1 := by
  have dispatched (passed : ¬ ((request.method = .announce ∨ request.method = .record) ∧ ¬ surroundings.allowed)) :
      Inv (dispatch conn surroundings request (request.cseq.getD 0)).1 := by
    refine dispatch_keeps kept conn _ (fun announce => ?_) held
    by_contra refused
    exact passed ⟨.inl announce, refused⟩
  simp only [handleRequest]
  split
  · split
    · exact held
    · split
      · exact held
      · rename_i passed
        exact dispatched passed
  · split
    · exact held
    · rename_i passed
      exact dispatched passed

end Lvqr.Rtsp.ConnectionState
