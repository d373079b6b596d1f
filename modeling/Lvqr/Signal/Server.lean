import Lvqr.Lib.Machine
import Lvqr.Lib.Table
import Lvqr.Lib.Text
import Lvqr.Lib.Utf8

set_option autoImplicit false

namespace Lvqr.Signal

abbrev ConnId := Nat

structure IceServer where
  urls : List String
  username : Option String
  credential : Option String
deriving DecidableEq

inductive SignalMessage where
  | register (peerId track : String) (capacity : Option Nat)
  | offer (fromPeer toPeer sdp : String)
  | answer (fromPeer toPeer sdp : String)
  | iceCandidate (fromPeer toPeer candidate : String)
  | assignParent (peerId role : String) (parentId : Option String) (depth : Nat) (iceServers : List IceServer)
  | peerLeft (peerId : String)
  | error (code reason : String)
  | forwardReport (forwardedFrames : Nat)
deriving DecidableEq

def SignalMessage.toPeer : SignalMessage → Option String
  | .offer _ toPeer _ => some toPeer
  | .answer _ toPeer _ => some toPeer
  | .iceCandidate _ toPeer _ => some toPeer
  | _ => none

def SignalMessage.fromPeer : SignalMessage → Option String
  | .offer fromPeer _ _ => some fromPeer
  | .answer fromPeer _ _ => some fromPeer
  | .iceCandidate fromPeer _ _ => some fromPeer
  | _ => none

def MAX_PEER_ID_LEN : Nat := 64

def MAX_TRACK_LEN : Nat := 128

def asciiAlphanumeric (char : Char) : Bool :=
  ('0' ≤ char && char ≤ '9') || ('A' ≤ char && char ≤ 'Z') || ('a' ≤ char && char ≤ 'z')

def isValidPeerId (text : String) : Bool :=
  !text.toList.isEmpty && (Utf8.encode text.toList).length ≤ MAX_PEER_ID_LEN &&
    text.toList.all fun char => asciiAlphanumeric char || char == '_' || char == '-'

def isValidTrack (text : String) : Bool :=
  let chars := text.toList
  if chars.isEmpty || MAX_TRACK_LEN < (Utf8.encode chars).length then false
  else if chars.head? == some '/' || chars.getLast? == some '/' || (Text.before ['.', '.'] chars).isSome ||
      (Text.before ['/', '/'] chars).isSome then false
  else chars.all fun char => asciiAlphanumeric char || char == '_' || char == '-' || char == '.' || char == '/'

-- What the socket yields. JSON that does not parse carries the parser's message.
inductive Inbound where
  | text (parsed : Except String SignalMessage)
  | close
  | other
  | failed (reason : String)
  | ended

-- The error is what the server sends back before it gives up, if anything.
def waitForRegister : Inbound → Except (Option SignalMessage) (String × String × Option Nat)
  | .text (.ok (.register peerId track capacity)) =>
      if !isValidPeerId peerId then
        .error (some (.error "invalid_peer_id" "peer_id must match [A-Za-z0-9_-]\x7b1,64\x7d"))
      else if !isValidTrack track then
        .error (some (.error "invalid_track"
          "track must match [A-Za-z0-9._/-]\x7b1,128\x7d and must not contain .. or leading/trailing /"))
      else .ok (peerId, track, capacity)
  | .text (.ok _) =>
      .error (some (.error "expected_register" "first message on a signaling connection must be Register"))
  | .text (.error reason) =>
      .error (some (.error "invalid_json" ("first message must be a valid Register JSON: " ++ reason)))
  | _ => .error none

def recvWsMessage : Inbound → Option (Except String SignalMessage)
  | .text (.ok message) => some (.ok message)
  | .text (.error reason) => some (.error ("invalid JSON: " ++ reason))
  | .close => none
  | .other => some (.error "unexpected message type")
  | .failed reason => some (.error ("websocket error: " ++ reason))
  | .ended => none

-- A connection's channel is named by the connection that reads it.
structure PeerSession where
  tx : ConnId
  track : String
deriving DecidableEq

structure PeerEvent where
  peerId : String
  track : String
  capacity : Option Nat
  connected : Bool
deriving DecidableEq

-- What the peer callback answers a registration with.
structure ParentAssignment where
  role : String
  parentId : Option String
  depth : Nat
  iceServers : List IceServer

-- `sender` is the peer id under which the sending connection registered, `none`
-- for a message of the server itself.
structure Delivery where
  message : SignalMessage
  sender : Option String
deriving DecidableEq

-- A registered connection, from the handshake until its handler has returned.
-- `live` ends when the socket yields no more messages; `received` is all that
-- ever reached the channel and `written` how much of it went to the socket.
structure Connection where
  peerId : String
  live : Bool
  received : List Delivery
  written : Nat
deriving DecidableEq

-- The server with its connections. `events` are the calls of the peer callback
-- and `reports` those of the forward report callback.
structure SignalServer where
  peers : Table String PeerSession
  connections : Table ConnId Connection
  events : List PeerEvent
  reports : List (String × Nat)

namespace SignalServer

def new : SignalServer := ⟨∅, ∅, [], []⟩

-- A channel whose reader has gone takes nothing.
def send (server : SignalServer) (tx : ConnId) (delivery : Delivery) : SignalServer :=
  { server with
    connections := Table.modify tx (fun connection => { connection with received := connection.received ++ [delivery] })
      server.connections }

def sendToPeer (server : SignalServer) (peerId : String) (delivery : Delivery) : SignalServer :=
  match server.peers.lookup peerId with
  | some session => server.send session.tx delivery
  | none => server

def registerPeer (server : SignalServer) (conn : ConnId) (peerId track : String) (capacity : Option Nat)
    (response : Option ParentAssignment) : SignalServer :=
  let registered : SignalServer :=
    { server with
      peers := server.peers.insert peerId ⟨conn, track⟩
      connections := server.connections.insert conn ⟨peerId, true, [], 0⟩
      events := server.events ++ [⟨peerId, track, capacity, true⟩] }
  match response with
  | some place =>
      registered.sendToPeer peerId
        ⟨.assignParent peerId place.role place.parentId place.depth place.iceServers, none⟩
  | none => registered

def removePeer (server : SignalServer) (peerId : String) : SignalServer :=
  match server.peers.lookup peerId with
  | some session =>
      { server with
        peers := server.peers.erase peerId
        events := server.events ++ [⟨peerId, session.track, none, false⟩] }
  | none => server

def handleSignalMessage (server : SignalServer) (fromPeer : String) (message : SignalMessage) : SignalServer :=
  match message with
  | .forwardReport frames => { server with reports := server.reports ++ [(fromPeer, frames)] }
  | message =>
      match message.toPeer with
      | some toPeer => server.sendToPeer toPeer ⟨message, some fromPeer⟩
      | none => server

def announceLeft (server : SignalServer) (peerId : String) : SignalServer :=
  server.peers.entries.foldl (fun server entry => server.send entry.2.tx ⟨.peerLeft peerId, none⟩) server

-- The end of the connection handler, after its loop.
def finish (server : SignalServer) (conn : ConnId) (peerId : String) : SignalServer :=
  (({ server with connections := server.connections.erase conn } : SignalServer).removePeer peerId).announceLeft peerId

end SignalServer

inductive SignalOp where
  | first (conn : ConnId) (inbound : Inbound) (response : Option ParentAssignment)
  | receive (conn : ConnId) (inbound : Inbound)
  | outgoing (conn : ConnId) (sent : Bool)

inductive Branch where
  | ignored
  | registered (conn : ConnId) (peerId track : String) (capacity : Option Nat) (response : Option ParentAssignment)
  | handled (conn : ConnId) (fromPeer : String) (message : SignalMessage)
  | written (conn : ConnId)
  | muted (conn : ConnId)
  | left (conn : ConnId) (peerId : String)

namespace SignalServer

-- Which branch of the connection handler runs. A `None` from the socket only
-- disables its branch of the select: the handler goes on waiting for its own
-- channel, and leaves when a write fails or when the channel is closed as well.
def branch (server : SignalServer) : SignalOp → Branch
  | .first conn inbound response =>
      match server.connections.lookup conn, waitForRegister inbound with
      | none, .ok (peerId, track, capacity) => .registered conn peerId track capacity response
      | _, _ => .ignored
  | .receive conn inbound =>
      match server.connections.lookup conn with
      | none => .ignored
      | some connection =>
          if !connection.live then .ignored
          else
            match recvWsMessage inbound with
            | none => .muted conn
            | some (.error _) => .left conn connection.peerId
            | some (.ok (.register _ _ _)) => .left conn connection.peerId
            | some (.ok message) => .handled conn connection.peerId message
  | .outgoing conn sent =>
      match server.connections.lookup conn with
      | none => .ignored
      | some connection =>
          if connection.written < connection.received.length then
            if sent then .written conn else .left conn connection.peerId
          else if connection.live || (server.peers.entries.any fun entry => entry.2.tx == conn) then .ignored
          else .left conn connection.peerId

def perform (server : SignalServer) : Branch → SignalServer
  | .ignored => server
  | .registered conn peerId track capacity response => server.registerPeer conn peerId track capacity response
  | .handled _ fromPeer message => server.handleSignalMessage fromPeer message
  | .written conn =>
      { server with
        connections := Table.modify conn (fun connection => { connection with written := connection.written + 1 })
          server.connections }
  | .muted conn =>
      { server with
        connections := Table.modify conn (fun connection => { connection with live := false }) server.connections }
  | .left conn peerId => server.finish conn peerId

def apply (server : SignalServer) (op : SignalOp) : SignalServer := server.perform (server.branch op)

end SignalServer

end Lvqr.Signal
