import Mathlib.Algebra.Group.Nat.Defs
import Lvqr.Fragment.Broadcaster
import Lvqr.Lib.Table
import Lvqr.Lib.Brackets
import Lvqr.Lib.Machine

set_option autoImplicit false

-- The vendored server side of an RTMP session, from decoded messages to results.
namespace Lvqr.Rtmp

-- A number is kept as its value after the cast to `u32`, the only way it is read.
-- A property name occurs once, as in the map it stands for.
inductive Amf0Value where
  | number (asU32 : Nat)
  | boolean (value : Bool)
  | utf8String (value : String)
  | object (properties : List (String × Amf0Value))
  | null

inductive RtmpMessage where
  | amf0Command (streamId : Nat) (name : String) (commandObject : Amf0Value) (arguments : List Amf0Value)
  | amf0Data (streamId : Nat) (values : List Amf0Value)
  | audioData (streamId : Nat) (data : Bytes) (timestamp : Nat)
  | videoData (streamId : Nat) (data : Bytes) (timestamp : Nat)
  | acknowledgement
  | pingRequest
  | pingResponse
  | silent
  | unknown

inductive PublishMode where
  | live
  | record
  | append
deriving DecidableEq, Repr

inductive OutstandingRequest where
  | connectionRequest (appName : String)
  | publishRequested (streamKey : String) (mode : PublishMode) (streamId : Nat)
  | playRequested (streamKey : String) (streamId : Nat)
deriving DecidableEq, Repr

inductive StreamState where
  | created
  | publishing (streamKey : String) (mode : PublishMode)
  | playing (streamKey : String)
deriving DecidableEq, Repr

inductive SessionState where
  | started
  | connected
deriving DecidableEq, Repr

inductive ServerSessionEvent where
  | connectionRequested (requestId : Nat) (appName : String)
  | publishStreamRequested (requestId : Nat) (appName streamKey : String) (mode : PublishMode)
  | publishStreamFinished (appName streamKey : String)
  | streamMetadataChanged (appName streamKey : String) (videoCodecId : Option Nat)
  | audioDataReceived (appName streamKey : String) (data : Bytes) (timestamp : Nat)
  | videoDataReceived (appName streamKey : String) (data : Bytes) (timestamp : Nat)
  | amf0DataReceived (appName streamKey : String)
  | playStreamRequested (requestId : Nat) (appName streamKey : String) (streamId : Nat)
  | playStreamFinished (appName streamKey : String)
  | unhandleable
deriving DecidableEq, Repr

inductive ServerSessionResult where
  | outboundResponse
  | raisedEvent (event : ServerSessionEvent)
  | unhandleableMessageReceived
deriving DecidableEq, Repr

-- Both end the connection's task: an error by return, a panic by unwinding.
inductive Fault where
  | error
  | panicked
deriving DecidableEq, Repr

structure ServerSession where
  connectedAppName : Option String
  outstandingRequests : Table Nat OutstandingRequest
  nextRequestNumber : Nat
  currentState : SessionState
  activeStreams : Table Nat StreamState
  nextStreamId : Nat

namespace ServerSession

def new : ServerSession := ⟨none, ∅, 0, .started, ∅, 1⟩

abbrev Handled := Except Fault (ServerSession × List ServerSessionResult)

def respond (session : ServerSession) : Handled := .ok (session, [.outboundResponse])

def raise (session : ServerSession) (event : ServerSessionEvent) : Handled := .ok (session, [.raisedEvent event])

def ignore (session : ServerSession) : Handled := .ok (session, [])

def request (session : ServerSession) (outstanding : OutstandingRequest) : ServerSession :=
  { session with
    outstandingRequests := session.outstandingRequests.insert session.nextRequestNumber outstanding
    nextRequestNumber := (session.nextRequestNumber + 1) % 2 ^ 32 }

-- One trailing slash of an application name is dropped.
def appName (app : String) : String :=
  if app.toList.getLast? = some '/' then String.ofList app.toList.dropLast else app

def handleCommandConnect (session : ServerSession) (commandObject : Amf0Value) : Handled :=
  match commandObject with
  | .object properties =>
      match properties.lookup "app" with
      | some (.utf8String app) =>
          let named := appName app
          (session.request (.connectionRequest named)).raise (.connectionRequested session.nextRequestNumber named)
      | _ => .error .error
  | _ => .error .error

def finished (appName : String) (state : StreamState) : List ServerSessionResult :=
  match state with
  | .publishing streamKey _ => [.raisedEvent (.publishStreamFinished appName streamKey)]
  | .playing streamKey => [.raisedEvent (.playStreamFinished appName streamKey)]
  | .created => []

-- What `closeStream` and `deleteStream` check before they touch a stream.
def namedStream (session : ServerSession) (arguments : List Amf0Value) : Option (String × Nat × StreamState) :=
  if session.currentState = .connected then
    match session.connectedAppName, arguments with
    | some app, .number streamId :: _ =>
        (session.activeStreams.lookup streamId).map fun state => (app, streamId, state)
    | _, _ => none
  else none

def handleCommandCloseStream (session : ServerSession) (arguments : List Amf0Value) : Handled :=
  match session.namedStream arguments with
  | none => session.ignore
  | some (app, streamId, state) =>
      .ok ({ session with activeStreams := session.activeStreams.insert streamId .created }, finished app state)

def handleCommandDeleteStream (session : ServerSession) (arguments : List Amf0Value) : Handled :=
  match session.namedStream arguments with
  | none => session.ignore
  | some (app, streamId, state) =>
      .ok ({ session with activeStreams := session.activeStreams.erase streamId }, finished app state)

def handleCommandCreateStream (session : ServerSession) : Handled :=
  respond { session with
    activeStreams := session.activeStreams.insert session.nextStreamId .created
    nextStreamId := (session.nextStreamId + 1) % 2 ^ 32 }

def publishMode (raw : String) : Option PublishMode :=
  if raw = "live" then some .live
  else if raw = "append" then some .append
  else if raw = "record" then some .record
  else none

-- Whatever is wrong with the request is answered with an error response.
def handleCommandPublish (session : ServerSession) (streamId : Nat) (arguments : List Amf0Value) : Handled :=
  if session.currentState = .connected then
    match session.connectedAppName, arguments with
    | some app, .utf8String streamKey :: .utf8String raw :: _ =>
        match publishMode raw with
        | some mode =>
            (session.request (.publishRequested streamKey mode streamId)).raise
              (.publishStreamRequested session.nextRequestNumber app streamKey mode)
        | none => session.respond
    | _, _ => session.respond
  else session.respond

def handleCommandPlay (session : ServerSession) (streamId : Nat) (arguments : List Amf0Value) : Handled :=
  if session.currentState = .connected then
    match session.connectedAppName, arguments with
    | some app, .utf8String streamKey :: _ =>
        (session.request (.playRequested streamKey streamId)).raise
          (.playStreamRequested session.nextRequestNumber app streamKey streamId)
    | _, _ => session.respond
  else session.respond

def handleAmf0Command (session : ServerSession) (streamId : Nat) (name : String) (commandObject : Amf0Value)
    (arguments : List Amf0Value) : Handled :=
  if name = "connect" then session.handleCommandConnect commandObject
  else if name = "closeStream" then session.handleCommandCloseStream arguments
  else if name = "createStream" then session.handleCommandCreateStream
  else if name = "deleteStream" then session.handleCommandDeleteStream arguments
  else if name = "play" then session.handleCommandPlay streamId arguments
  else if name = "publish" then session.handleCommandPublish streamId arguments
  else session.raise .unhandleable

def publishedOn (session : ServerSession) (streamId : Nat) : Option String :=
  match session.activeStreams.lookup streamId with
  | some (.publishing streamKey _) => some streamKey
  | _ => none

-- The only metadata value that is acted on.
def videoCodecId (metadata : Amf0Value) : Option Nat :=
  match metadata with
  | .object properties =>
      match properties.lookup "videocodecid" with
      | some (.number codec) => some codec
      | _ => none
  | _ => none

-- The data is indexed without a check of its length.
def handleAmf0DataSetDataFrame (session : ServerSession) (data : List Amf0Value) (streamId : Nat) : Handled :=
  match data with
  | [] => .error .panicked
  | .utf8String value :: values =>
      if value = "onMetaData" then
        match session.connectedAppName, session.publishedOn streamId with
        | some app, some streamKey =>
            match values with
            | [] => .error .panicked
            | metadata :: _ => session.raise (.streamMetadataChanged app streamKey (videoCodecId metadata))
        | _, _ => session.ignore
      else session.ignore
  | _ :: _ => session.ignore

def handleAmf0Data (session : ServerSession) (data : List Amf0Value) (streamId : Nat) : Handled :=
  match data with
  | [] => session.ignore
  | .utf8String value :: values =>
      if value = "@setDataFrame" then session.handleAmf0DataSetDataFrame values streamId
      else session.raise (.amf0DataReceived (session.connectedAppName.getD "") ((session.publishedOn streamId).getD ""))
  | _ :: _ => session.raise (.amf0DataReceived (session.connectedAppName.getD "") ((session.publishedOn streamId).getD ""))

def handleMedia (session : ServerSession) (streamId : Nat) (event : String → String → ServerSessionEvent) : Handled :=
  if session.currentState = .connected then
    match session.connectedAppName, session.publishedOn streamId with
    | some app, some streamKey => session.raise (event app streamKey)
    | _, _ => session.ignore
  else session.ignore

def handleAudioData (session : ServerSession) (streamId : Nat) (data : Bytes) (timestamp : Nat) : Handled :=
  session.handleMedia streamId fun app streamKey => .audioDataReceived app streamKey data timestamp

def handleVideoData (session : ServerSession) (streamId : Nat) (data : Bytes) (timestamp : Nat) : Handled :=
  session.handleMedia streamId fun app streamKey => .videoDataReceived app streamKey data timestamp

def handleMessage (session : ServerSession) : RtmpMessage → Handled
  | .amf0Command streamId name commandObject arguments =>
      session.handleAmf0Command streamId name commandObject arguments
  | .amf0Data streamId values => session.handleAmf0Data values streamId
  | .audioData streamId data timestamp => session.handleAudioData streamId data timestamp
  | .videoData streamId data timestamp => session.handleVideoData streamId data timestamp
  | .acknowledgement => session.raise .unhandleable
  | .pingRequest => session.respond
  | .pingResponse => session.raise .unhandleable
  | .silent => session.ignore
  | .unknown => .ok (session, [.unhandleableMessageReceived])

-- The messages of one read; `none` is where the chunk decoder, a message parser
-- or a response's serializer fails. What was handled before is lost with it.
def handleInput (session : ServerSession) : List (Option RtmpMessage) → Handled
  | [] => session.ignore
  | none :: _ => .error .error
  | some message :: rest => do
      let (handled, results) ← session.handleMessage message
      let (last, more) ← handled.handleInput rest
      return (last, results ++ more)

-- The packets are counted, not built.
def acceptRequest (session : ServerSession) (requestId : Nat) : Except Fault (ServerSession × Nat) :=
  match session.outstandingRequests.lookup requestId with
  | none => .error .error
  | some outstanding =>
      let taken := { session with outstandingRequests := session.outstandingRequests.erase requestId }
      match outstanding with
      | .connectionRequest app => .ok ({ taken with connectedAppName := some app, currentState := .connected }, 1)
      | .publishRequested streamKey mode streamId =>
          match taken.activeStreams.lookup streamId with
          | none => .error .error
          | some _ =>
              .ok ({ taken with
                activeStreams := taken.activeStreams.insert streamId (.publishing streamKey mode) }, 2)
      | .playRequested streamKey streamId =>
          match taken.activeStreams.lookup streamId with
          | none => .error .error
          | some _ =>
              .ok ({ taken with activeStreams := taken.activeStreams.insert streamId (.playing streamKey) }, 5)

end ServerSession

-- The task of one RTMP connection, from its handshake to its last callback.

open Brackets (Mark Covered Settled outstanding)

-- The callbacks and registrar closures, in the order they are called.
inductive Callback where
  | publish (appName streamKey : String)
  | unpublish (appName streamKey : String)
  | video (appName streamKey : String) (data : Bytes) (timestamp : Nat)
  | audio (appName streamKey : String) (data : Bytes) (timestamp : Nat)
  | register (name : String)
  | deregister (name : String)
deriving DecidableEq, Repr

-- How the task ends.
inductive Exit where
  | handshakeFailed
  | eof
  | readError
  | inputError (fault : Fault)
  | writeError
  | acceptError
  | refused
  | codecRejected
  | cancelled
deriving DecidableEq, Repr

-- The answers the task gets from outside: the provider's, by the number of the
-- question, and whether a write succeeds, by the number of the write.
structure Environment where
  validatePublish : Option (Nat → String → String → Bool)
  writes : Nat → Bool
  registrar : Bool

structure Connection where
  session : ServerSession
  currentApp : String
  currentKey : String
  dereg : Option String
  callbacks : List Callback
  clock : Nat
  exit : Option Exit

inductive Input where
  | read (acknowledge : Bool) (messages : List (Option RtmpMessage))
  | eof
  | readError
  | cancelled

-- The exits that call `on_unpublish` for the current application and key.
def Exit.unpublishes : Exit → Bool
  | .eof | .cancelled | .codecRejected => true
  | _ => false

namespace Connection

def new : Connection := ⟨.new, "", "", none, [], 0, none⟩

def current (c : Connection) : String × String := (c.currentApp, c.currentKey)

def hasCurrent (c : Connection) : Bool := c.currentApp != "" && c.currentKey != ""

def call (c : Connection) (callback : Callback) : Connection :=
  { c with callbacks := c.callbacks ++ [callback] }

-- The guard deregisters the last name registered, on every exit.
def drop (c : Connection) : Connection :=
  match c.dereg with
  | some name => c.call (.deregister name)
  | none => c

def leave (c : Connection) (exit : Exit) : Connection :=
  let unpublished :=
    if exit.unpublishes && c.hasCurrent then c.call (.unpublish c.currentApp c.currentKey) else c
  { unpublished.drop with exit := some exit }

-- Whether the next packets all go out; a response that cannot be serialized
-- ends the task as a failed write does.
def sends (env : Environment) (c : Connection) (packets : Nat) : Bool :=
  (List.range packets).all fun sent => env.writes (c.clock + sent)

def write (env : Environment) (c : Connection) (packets : Nat) : Connection :=
  let written := { c with clock := c.clock + packets }
  if c.sends env packets then written else written.leave .writeError

def refuses (env : Environment) (c : Connection) (appName streamKey : String) : Bool :=
  match env.validatePublish with
  | some validate => !validate c.clock appName streamKey
  | none => false

def broadcastName (appName streamKey : String) : String := appName ++ "/" ++ streamKey

def published (env : Environment) (c : Connection) (appName streamKey : String) : Connection :=
  let called := c.call (.publish appName streamKey)
  if env.registrar then
    { called.call (.register (broadcastName appName streamKey)) with dereg := some (broadcastName appName streamKey) }
  else called

def accept (env : Environment) (c : Connection) (requestId : Nat) : Connection :=
  match c.session.acceptRequest requestId with
  | .error _ => c.leave .acceptError
  | .ok (session, packets) => { c with session := session }.write env packets

def connectionRequested (env : Environment) (c : Connection) (requestId : Nat) (appName : String) : Connection :=
  { c with currentApp := appName }.accept env requestId

def publishStreamRequested (env : Environment) (c : Connection) (requestId : Nat) (appName streamKey : String) :
    Connection :=
  if c.refuses env appName streamKey then c.leave .refused
  else
    let accepted := { c with currentKey := streamKey, clock := c.clock + 1 }.accept env requestId
    if accepted.exit.isSome then accepted else accepted.published env appName streamKey

def publishStreamFinished (c : Connection) (appName streamKey : String) : Connection :=
  { c.call (.unpublish appName streamKey) with currentKey := "" }

-- Only H.264 is taken; a codec that is not named is let through.
def unsupported : Option Nat → Bool
  | some codec => codec != 7
  | none => false

def handleEvent (env : Environment) (c : Connection) : ServerSessionEvent → Connection
  | .connectionRequested requestId appName => c.connectionRequested env requestId appName
  | .publishStreamRequested requestId appName streamKey _ => c.publishStreamRequested env requestId appName streamKey
  | .publishStreamFinished appName streamKey => c.publishStreamFinished appName streamKey
  | .streamMetadataChanged _ _ videoCodecId => if unsupported videoCodecId then c.leave .codecRejected else c
  | .videoDataReceived appName streamKey data timestamp => c.call (.video appName streamKey data timestamp)
  | .audioDataReceived appName streamKey data timestamp => c.call (.audio appName streamKey data timestamp)
  | _ => c

def handleResult (env : Environment) (c : Connection) (result : ServerSessionResult) : Connection :=
  if c.exit.isSome then c
  else
    match result with
    | .outboundResponse => c.write env 1
    | .raisedEvent event => c.handleEvent env event
    | .unhandleableMessageReceived => c

-- The acknowledgement that the byte counts call for comes before the messages.
def acknowledged (acknowledge : Bool) (results : List ServerSessionResult) : List ServerSessionResult :=
  if acknowledge then .outboundResponse :: results else results

def step (env : Environment) (c : Connection) (input : Input) : Connection :=
  if c.exit.isSome then c
  else
    match input with
    | .cancelled => c.leave .cancelled
    | .eof => c.leave .eof
    | .readError => c.leave .readError
    | .read acknowledge messages =>
        match c.session.handleInput messages with
        | .error fault => c.leave (.inputError fault)
        | .ok (session, results) =>
            Machine.run (handleResult env) { c with session := session } (acknowledged acknowledge results)

-- Of what came in behind the handshake only the responses are looked at.
def processSessionResults (env : Environment) (c : Connection) (results : List ServerSessionResult) : Connection :=
  c.write env (results.filter (· = .outboundResponse)).length

def handleRemaining (env : Environment) (c : Connection) (remaining : List (Option RtmpMessage)) : Connection :=
  match c.session.handleInput remaining with
  | .error fault => c.leave (.inputError fault)
  | .ok (session, results) => { c with session := session }.processSessionResults env results

-- Four packets and `onBWDone` open the session.
def handleRtmpSession (env : Environment) (remaining : List (Option RtmpMessage)) : Connection :=
  let opened := new.write env 5
  if opened.exit.isSome then opened else opened.handleRemaining env remaining

def handleRtmpConnection (env : Environment) (handshake : Bool) (remaining : List (Option RtmpMessage)) : Connection :=
  if handshake then handleRtmpSession env remaining else new.leave .handshakeFailed

end Connection

end Lvqr.Rtmp
