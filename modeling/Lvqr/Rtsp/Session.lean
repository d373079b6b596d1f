import Mathlib.Algebra.Group.Nat.Defs
import Mathlib.Data.List.Infix
import Lvqr.Lib.Table
import Lvqr.Lib.Text

set_option autoImplicit false

-- The state machine of one session, and the header and SDP fields it is set up
-- from.
namespace Lvqr.Rtsp

abbrev SessionId := String

inductive SessionState where
  | init
  | ready
  | playing
  | recording
deriving DecidableEq, Repr

inductive SessionMode where
  | playback
  | ingest
deriving DecidableEq, Repr

inductive MediaType where
  | video
  | audio
deriving DecidableEq, Repr

inductive TrackCodec where
  | h264
  | h265
  | aac
  | opus
  | unknown
deriving DecidableEq, Repr

structure TrackInfo where
  mediaType : MediaType
  codec : TrackCodec
  clockRate : Nat
  control : String
  fmtp : Option String
deriving DecidableEq, Repr

structure TrackTransport where
  controlPath : String
  interleaved : Option (Nat × Nat)
deriving DecidableEq, Repr

structure TransportSpec where
  protocol : String
  unicast : Bool
  interleaved : Option (Nat × Nat)
  clientPort : Option (Nat × Nat)
deriving DecidableEq, Repr

def parsePair (limit : Nat) (text : List Char) : Option (Nat × Nat) :=
  match Text.splitOnce '-' text with
  | none => none
  | some (first, second) =>
      match Text.parseUnsigned limit first, Text.parseUnsigned limit second with
      | some first, some second => some (first, second)
      | _, _ => none

def transportPart (spec : TransportSpec) (text : List Char) : TransportSpec :=
  let part := Text.trim text
  if "RTP/".toList <:+: part then { spec with protocol := String.ofList part }
  else if part = "unicast".toList then { spec with unicast := true }
  else
    match Text.stripPrefix "interleaved=".toList part, Text.stripPrefix "client_port=".toList part with
    | some rest, _ =>
        if '-' ∈ rest then { spec with interleaved := parsePair (2 ^ 8) rest } else spec
    | none, some rest =>
        if '-' ∈ rest then { spec with clientPort := parsePair (2 ^ 16) rest } else spec
    | none, none => spec

def parseTransport (value : String) : TransportSpec :=
  (value.toList.splitOn ';').foldl transportPart ⟨"", false, none, none⟩

def trackCodec (name : List Char) : TrackCodec :=
  let upper := name.map Char.toUpper
  if upper = "H264".toList then .h264
  else if upper = "H265".toList ∨ upper = "HEVC".toList then .h265
  else if upper = "MPEG4-GENERIC".toList then .aac
  else if upper = "OPUS".toList then .opus
  else .unknown

def sdpMedia (rest : List Char) : Option TrackInfo :=
  match Text.words rest with
  | media :: _ :: _ :: format :: _ =>
      let clockRate := (Text.parseUnsigned (2 ^ 32) format).getD 90000
      if media = "video".toList then some ⟨.video, .unknown, clockRate, "", none⟩
      else if media = "audio".toList then some ⟨.audio, .unknown, clockRate, "", none⟩
      else none
  | _ => none

def sdpAttribute (track : TrackInfo) (rest : List Char) : TrackInfo :=
  match Text.stripPrefix "control:".toList rest, Text.stripPrefix "rtpmap:".toList rest,
    Text.stripPrefix "fmtp:".toList rest with
  | some value, _, _ => { track with control := String.ofList (Text.trim value) }
  | none, some value, _ =>
      let codecPart := ((Text.words (Text.trim value))[1]?).getD []
      let (name, rates) := (Text.splitOnce '/' codecPart).getD (codecPart, [])
      let rate := Text.parseUnsigned (2 ^ 32) (rates.takeWhile (· ≠ '/'))
      { track with codec := trackCodec name, clockRate := rate.getD track.clockRate }
  | none, none, some value => { track with fmtp := some (String.ofList (Text.trim value)) }
  | none, none, none => track

-- The tracks that are complete and the one the attributes belong to.
def sdpLine (parsed : List TrackInfo × Option TrackInfo) (line : List Char) : List TrackInfo × Option TrackInfo :=
  match Text.stripPrefix "m=".toList line, Text.stripPrefix "a=".toList line with
  | some rest, _ => (parsed.1 ++ parsed.2.toList, sdpMedia rest)
  | none, some rest => (parsed.1, parsed.2.map fun track => sdpAttribute track rest)
  | none, none => parsed

def trimReturns (line : List Char) : List Char := (line.reverse.dropWhile (· = '\r')).reverse

def parseSdpTracks (sdp : List Char) : List TrackInfo :=
  let (tracks, current) := ((Text.lines sdp).map trimReturns).foldl sdpLine ([], none)
  tracks ++ current.toList

-- `serial` is ghost state: which session of the connection this is.
structure Session where
  id : SessionId
  state : SessionState
  mode : SessionMode
  broadcast : String
  tracks : List TrackInfo
  transports : Table String TrackTransport
  serial : Nat

inductive StateError where
  | invalidTransition (state : SessionState) (method : String)
  | wrongMode (mode : SessionMode) (method : String)
deriving DecidableEq, Repr

namespace Session

def new (id : SessionId) (mode : SessionMode) (broadcast : String) : Session :=
  ⟨id, .init, mode, broadcast, [], ∅, 0⟩

def setupTrack (session : Session) (control : String) (interleaved : Option (Nat × Nat)) : Session :=
  { session with
    transports := session.transports.insert control ⟨control, interleaved⟩
    state := .ready }

def play (session : Session) : Except StateError Session :=
  if session.state ≠ .ready then .error (.invalidTransition session.state "PLAY")
  else if session.mode ≠ .playback then .error (.wrongMode session.mode "PLAY")
  else .ok { session with state := .playing }

def record (session : Session) : Except StateError Session :=
  if session.state ≠ .ready then .error (.invalidTransition session.state "RECORD")
  else if session.mode ≠ .ingest then .error (.wrongMode session.mode "RECORD")
  else .ok { session with state := .recording }

theorem play_ok (session next : Session) (played : session.play = .ok next) :
    session.mode = .playback ∧ next = { session with state := .playing } := by
  rw [play] at played
  split at played
  · cases played
  · split at played
    · cases played
    · rename_i mode
      exact ⟨not_not.mp mode, (Except.ok.inj played).symm⟩

theorem record_ok (session next : Session) (recorded : session.record = .ok next) :
    session.mode = .ingest ∧ next = { session with state := .recording } := by
  rw [record] at recorded
  split at recorded
  · cases recorded
  · split at recorded
    · cases recorded
    · rename_i mode
      exact ⟨not_not.mp mode, (Except.ok.inj recorded).symm⟩

end Session

example : (parseSdpTracks "m=video 0 RTP/AVP 96\r\na=rtpmap:96 H264/90000\r\na=control:track1\r\n".toList) =
    [⟨.video, .h264, 90000, "track1", none⟩] := by decide +kernel

end Lvqr.Rtsp
