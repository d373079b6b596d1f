import Lvqr.Signal.Server

set_option autoImplicit false

namespace Lvqr.Signal

namespace SignalServer

-- Only channels have grown, and only by messages of a kind.
structure Delivers (Allowed : Delivery → Prop) (before after : SignalServer) : Prop where
  peers : after.peers = before.peers
  events : after.events = before.events
  channels : ∀ conn, ∃ more, (∀ delivery ∈ more, Allowed delivery) ∧
    after.connections.lookup conn =
      (before.connections.lookup conn).map fun connection => { connection with received := connection.received ++ more }

theorem Delivers.rfl' (Allowed : Delivery → Prop) (server : SignalServer) : Delivers Allowed server server := by
  refine ⟨rfl, rfl, fun conn => ⟨[], by simp, ?_⟩⟩
  cases server.connections.lookup conn <;> simp

theorem Delivers.trans {Allowed : Delivery → Prop} {first second third : SignalServer}
    (before : Delivers Allowed first second) (after : Delivers Allowed second third) : Delivers Allowed first third := by
  refine ⟨after.peers.trans before.peers, after.events.trans before.events, fun conn => ?_⟩
  obtain ⟨more, allowed, grown⟩ := before.channels conn
  obtain ⟨rest, restAllowed, restGrown⟩ := after.channels conn
  refine ⟨more ++ rest, ?_, ?_⟩
  · intro delivery member
    exact (List.mem_append.mp member).elim (allowed delivery) (restAllowed delivery)
  · rw [restGrown, grown, Option.map_map]
    simp [Function.comp_def]

theorem send_lookup (server : SignalServer) (tx conn : ConnId) (delivery : Delivery) :
    (server.send tx delivery).connections.lookup conn =
      if conn = tx then
        (server.connections.lookup tx).map fun connection =>
          { connection with received := connection.received ++ [delivery] }
      else server.connections.lookup conn :=
  Table.lookup_modify server.connections tx conn _

theorem send_delivers (Allowed : Delivery → Prop) (server : SignalServer) (tx : ConnId) (delivery : Delivery)
    (allowed : Allowed delivery) : Delivers Allowed server (server.send tx delivery) := by
  refine ⟨rfl, rfl, fun conn => ?_⟩
  rw [send_lookup]
  by_cases here : conn = tx
  · refine ⟨[delivery], by simpa using allowed, ?_⟩
    rw [if_pos here, here]
  · refine ⟨[], by simp, ?_⟩
    rw [if_neg here]
    cases server.connections.lookup conn <;> simp

theorem send_to_peer_delivers (Allowed : Delivery → Prop) (server : SignalServer) (peerId : String)
    (delivery : Delivery) (allowed : Allowed delivery) : Delivers Allowed server (server.sendToPeer peerId delivery) := by
  rw [sendToPeer]
  split
  · exact server.send_delivers Allowed _ delivery allowed
  · exact .rfl' Allowed server

theorem announce_left_delivers (Allowed : Delivery → Prop) (server : SignalServer) (peerId : String)
    (allowed : Allowed ⟨.peerLeft peerId, none⟩) : Delivers Allowed server (server.announceLeft peerId) := by
  have all : ∀ (entries : List (Sigma fun _ : String => PeerSession)) (start : SignalServer),
      Delivers Allowed start (entries.foldl (fun server entry => server.send entry.2.tx ⟨.peerLeft peerId, none⟩) start) := by
    intro entries
    induction entries with
    | nil => exact fun start => .rfl' Allowed start
    | cons entry entries ih =>
        intro start
        exact (start.send_delivers Allowed entry.2.tx _ allowed).trans (ih _)
  exact all server.peers.entries server

-- The message says what the server knows about its sender.
def AuthenticDelivery (delivery : Delivery) : Prop :=
  ∀ claimed, delivery.message.fromPeer = some claimed → delivery.sender = some claimed

-- Where a message to the peer id goes while the connection is open.
def Routed (server : SignalServer) : Prop :=
  ∀ conn connection, server.connections.lookup conn = some connection → connection.live = true →
    (server.peers.lookup connection.peerId).map PeerSession.tx = some conn

def Authentic (server : SignalServer) : Prop :=
  ∀ conn connection, server.connections.lookup conn = some connection →
    ∀ delivery ∈ connection.received, AuthenticDelivery delivery

def OpenAs (server : SignalServer) (conn : ConnId) (peerId : String) : Prop :=
  ∃ connection, server.connections.lookup conn = some connection ∧ connection.live = true ∧ connection.peerId = peerId

def OpenElsewhere (server : SignalServer) (conn : ConnId) (peerId : String) : Prop :=
  ∃ other, other ≠ conn ∧ server.OpenAs other peerId

-- The disconnect of one connection leaves the session entries of the other open
-- connections alone, and the callback is not told that their peers have left.
def DisconnectSpares (server : SignalServer) (op : SignalOp) : Prop :=
  ∀ conn peerId, server.branch op = .left conn peerId →
    ∀ other connection, other ≠ conn → server.connections.lookup other = some connection → connection.live = true →
      (server.apply op).peers.lookup connection.peerId = server.peers.lookup connection.peerId ∧
        ∀ event ∈ (server.apply op).events.drop server.events.length,
          event.connected = false → event.peerId ≠ connection.peerId

-- No connection comes or goes under an id that another open connection has, and
-- what is forwarded names the id of the connection it came from.
def KeepsIdentity (server : SignalServer) (op : SignalOp) : Prop :=
  match server.branch op with
  | .registered conn peerId _ _ _ => ¬ server.OpenElsewhere conn peerId
  | .left conn peerId => ¬ server.OpenElsewhere conn peerId
  | .handled _ fromPeer message => ∀ toPeer, message.toPeer = some toPeer → toPeer ∈ server.peers →
      message.fromPeer = some fromPeer
  | _ => True

-- Every entry names a connection that registered under its id.
def Wired (server : SignalServer) : Prop :=
  ∀ peerId session, server.peers.lookup peerId = some session →
    ∃ connection, server.connections.lookup session.tx = some connection ∧ connection.peerId = peerId

theorem Delivers.routed_iff {Allowed : Delivery → Prop} {before after : SignalServer}
    (delivers : Delivers Allowed before after) : after.Routed ↔ before.Routed := by
  constructor
  · intro routed conn connection stored live
    obtain ⟨more, _, grown⟩ := delivers.channels conn
    rw [stored, Option.map_some] at grown
    have routes := routed conn _ grown live
    rwa [delivers.peers] at routes
  · intro routed conn connection stored live
    obtain ⟨more, _, grown⟩ := delivers.channels conn
    rw [grown] at stored
    obtain ⟨was, wasStored, rfl⟩ := Option.map_eq_some_iff.mp stored
    rw [delivers.peers]
    exact routed conn was wasStored live

theorem Delivers.wired {Allowed : Delivery → Prop} {before after : SignalServer}
    (delivers : Delivers Allowed before after) (wired : before.Wired) : after.Wired := by
  intro peerId session stored
  rw [delivers.peers] at stored
  obtain ⟨connection, known, same⟩ := wired peerId session stored
  obtain ⟨more, _, grown⟩ := delivers.channels session.tx
  rw [known, Option.map_some] at grown
  exact ⟨_, grown, same⟩

theorem Delivers.authentic_iff {before after : SignalServer} (delivers : Delivers AuthenticDelivery before after) :
    after.Authentic ↔ before.Authentic := by
  constructor
  · intro authentic conn connection stored delivery member
    obtain ⟨more, _, grown⟩ := delivers.channels conn
    rw [stored, Option.map_some] at grown
    exact authentic conn _ grown delivery (List.mem_append_left more member)
  · intro authentic conn connection stored delivery member
    obtain ⟨more, allowed, grown⟩ := delivers.channels conn
    rw [grown] at stored
    obtain ⟨was, wasStored, rfl⟩ := Option.map_eq_some_iff.mp stored
    exact (List.mem_append.mp member).elim (authentic conn was wasStored delivery) (allowed delivery)

theorem Delivers.open_iff {Allowed : Delivery → Prop} {before after : SignalServer}
    (delivers : Delivers Allowed before after) (conn : ConnId) (peerId : String) :
    after.OpenAs conn peerId ↔ before.OpenAs conn peerId := by
  obtain ⟨more, _, grown⟩ := delivers.channels conn
  rw [OpenAs, OpenAs, grown]
  cases before.connections.lookup conn <;> simp

-- Only a first message registers, on a connection the server does not have.
theorem branch_registered (server : SignalServer) (op : SignalOp) (conn : ConnId) (peerId track : String)
    (capacity : Option Nat) (response : Option ParentAssignment)
    (taken : server.branch op = .registered conn peerId track capacity response) :
    server.connections.lookup conn = none ∧ ∃ inbound, op = .first conn inbound response ∧
      waitForRegister inbound = .ok (peerId, track, capacity) := by
  cases op with
  | first fresh inbound answer =>
      rw [branch] at taken
      split at taken
      · rename_i known opened
        simp only [Branch.registered.injEq] at taken
        obtain ⟨rfl, rfl, rfl, rfl, rfl⟩ := taken
        exact ⟨known, inbound, rfl, opened⟩
      · cases taken
  | receive other inbound =>
      rw [branch] at taken
      repeat' split at taken
      all_goals cases taken
  | outgoing other sent =>
      rw [branch] at taken
      repeat' split at taken
      all_goals cases taken

-- A handler only handles messages and leaves for its own connection.
theorem branch_known (server : SignalServer) (op : SignalOp) (conn : ConnId) (peerId : String)
    (taken : (∃ message, server.branch op = .handled conn peerId message) ∨ server.branch op = .left conn peerId) :
    ∃ connection, server.connections.lookup conn = some connection ∧ connection.peerId = peerId := by
  cases op with
  | first fresh inbound answer =>
      rw [branch] at taken
      split at taken <;> simp at taken
  | receive other inbound =>
      rw [branch] at taken
      split at taken
      · simp at taken
      · rename_i connection known
        split at taken
        · simp at taken
        · split at taken <;> simp only [Branch.handled.injEq, Branch.left.injEq, reduceCtorEq, exists_false, false_or, or_false, exists_and_left] at taken
          · obtain ⟨rfl, same⟩ := taken
            exact ⟨connection, known, same⟩
          · obtain ⟨rfl, same⟩ := taken
            exact ⟨connection, known, same⟩
          · obtain ⟨rfl, same, _⟩ := taken
            exact ⟨connection, known, same⟩
  | outgoing other sent =>
      rw [branch] at taken
      split at taken
      · simp at taken
      · rename_i connection known
        repeat' split at taken
        all_goals simp only [Branch.left.injEq, reduceCtorEq, exists_false, false_or, or_false] at taken
        all_goals
          obtain ⟨rfl, same⟩ := taken
          exact ⟨connection, known, same⟩

theorem remove_peer_lookup (server : SignalServer) (peerId other : String) :
    (server.removePeer peerId).peers.lookup other = if other = peerId then none else server.peers.lookup other := by
  rw [removePeer]
  cases known : server.peers.lookup peerId with
  | none =>
      by_cases same : other = peerId
      · rw [if_pos same, same, known]
      · rw [if_neg same]
  | some session => exact Table.lookup_erase_eq server.peers peerId other

theorem remove_peer_connections (server : SignalServer) (peerId : String) :
    (server.removePeer peerId).connections = server.connections := by
  rw [removePeer]
  split <;> rfl

-- What leaving does apart from the announcements.
theorem finish_delivers (server : SignalServer) (conn : ConnId) (peerId : String) :
    Delivers AuthenticDelivery
      (({ server with connections := server.connections.erase conn } : SignalServer).removePeer peerId)
      (server.finish conn peerId) :=
  announce_left_delivers AuthenticDelivery _ peerId (by simp [AuthenticDelivery, SignalMessage.fromPeer])

def enrolled (server : SignalServer) (conn : ConnId) (peerId track : String) (capacity : Option Nat) : SignalServer :=
  { server with
    peers := server.peers.insert peerId ⟨conn, track⟩
    connections := server.connections.insert conn ⟨peerId, true, [], 0⟩
    events := server.events ++ [⟨peerId, track, capacity, true⟩] }

theorem register_delivers (server : SignalServer) (conn : ConnId) (peerId track : String) (capacity : Option Nat)
    (response : Option ParentAssignment) :
    Delivers AuthenticDelivery (server.enrolled conn peerId track capacity)
      (server.registerPeer conn peerId track capacity response) := by
  cases response with
  | none => exact .rfl' AuthenticDelivery (server.enrolled conn peerId track capacity)
  | some place =>
      exact (server.enrolled conn peerId track capacity).send_to_peer_delivers AuthenticDelivery peerId _
        (by simp [AuthenticDelivery, SignalMessage.fromPeer])

theorem enrolled_routed_iff (server : SignalServer) (conn : ConnId) (peerId track : String) (capacity : Option Nat)
    (routed : server.Routed) :
    (server.enrolled conn peerId track capacity).Routed ↔ ¬ server.OpenElsewhere conn peerId := by
  constructor
  · rintro after ⟨other, differs, connection, stored, live, rfl⟩
    have kept : (server.enrolled conn connection.peerId track capacity).connections.lookup other = some connection := by
      rw [enrolled, Table.lookup_insert_eq, if_neg differs, stored]
    have routes := after other connection kept live
    rw [enrolled, Table.lookup_insert_eq, if_pos rfl, Option.map_some] at routes
    exact differs (Option.some.inj routes).symm
  · intro alone other connection stored live
    rw [enrolled, Table.lookup_insert_eq] at stored
    rw [enrolled, Table.lookup_insert_eq]
    by_cases self : other = conn
    · rw [if_pos self] at stored
      obtain rfl := Option.some.inj stored
      rw [if_pos rfl, self, Option.map_some]
    · rw [if_neg self] at stored
      have apart : connection.peerId ≠ peerId := fun same => alone ⟨other, self, connection, stored, live, same⟩
      rw [if_neg apart]
      exact routed other connection stored live

theorem enrolled_authentic_iff (server : SignalServer) (conn : ConnId) (peerId track : String) (capacity : Option Nat)
    (authentic : server.Authentic) : (server.enrolled conn peerId track capacity).Authentic := by
  intro other connection stored delivery member
  rw [enrolled, Table.lookup_insert_eq] at stored
  by_cases self : other = conn
  · rw [if_pos self] at stored
    obtain rfl := Option.some.inj stored
    cases member
  · rw [if_neg self] at stored
    exact authentic other connection stored delivery member

theorem enrolled_wired (server : SignalServer) (conn : ConnId) (peerId track : String) (capacity : Option Nat)
    (wired : server.Wired) (fresh : server.connections.lookup conn = none) :
    (server.enrolled conn peerId track capacity).Wired := by
  intro other session stored
  rw [enrolled, Table.lookup_insert_eq] at stored
  by_cases self : other = peerId
  · rw [if_pos self] at stored
    obtain rfl := Option.some.inj stored
    exact ⟨⟨peerId, true, [], 0⟩, by rw [enrolled, Table.lookup_insert_eq, if_pos rfl], self.symm⟩
  · rw [if_neg self] at stored
    obtain ⟨connection, known, same⟩ := wired other session stored
    have apart : session.tx ≠ conn := by
      rintro rfl
      rw [fresh] at known
      cases known
    exact ⟨connection, by rw [enrolled, Table.lookup_insert_eq, if_neg apart, known], same⟩

theorem finish_lookup (server : SignalServer) (conn : ConnId) (peerId other : String) :
    (server.finish conn peerId).peers.lookup other = if other = peerId then none else server.peers.lookup other := by
  rw [(server.finish_delivers conn peerId).peers, remove_peer_lookup]

theorem left_routed_iff (server : SignalServer) (conn : ConnId) (peerId : String) (routed : server.Routed) :
    (server.finish conn peerId).Routed ↔ ¬ server.OpenElsewhere conn peerId := by
  rw [(server.finish_delivers conn peerId).routed_iff]
  constructor
  · rintro after ⟨other, differs, connection, stored, live, rfl⟩
    have kept : (({ server with connections := server.connections.erase conn } : SignalServer).removePeer
        connection.peerId).connections.lookup other = some connection := by
      rw [remove_peer_connections, Table.lookup_erase_eq, if_neg differs, stored]
    have routes := after other connection kept live
    rw [remove_peer_lookup, if_pos rfl] at routes
    cases routes
  · intro alone other connection stored live
    rw [remove_peer_connections, Table.lookup_erase_eq] at stored
    rw [remove_peer_lookup]
    by_cases self : other = conn
    · simp [self] at stored
    · rw [if_neg self] at stored
      have apart : connection.peerId ≠ peerId := fun same => alone ⟨other, self, connection, stored, live, same⟩
      rw [if_neg apart]
      exact routed other connection stored live

theorem left_authentic (server : SignalServer) (conn : ConnId) (peerId : String) (authentic : server.Authentic) :
    (server.finish conn peerId).Authentic := by
  rw [(server.finish_delivers conn peerId).authentic_iff]
  intro other connection stored
  rw [remove_peer_connections, Table.lookup_erase_eq] at stored
  by_cases self : other = conn
  · simp [self] at stored
  · rw [if_neg self] at stored
    exact authentic other connection stored

theorem left_wired (server : SignalServer) (conn : ConnId) (peerId : String) (wired : server.Wired)
    (own : ∃ connection, server.connections.lookup conn = some connection ∧ connection.peerId = peerId) :
    (server.finish conn peerId).Wired := by
  refine (server.finish_delivers conn peerId).wired ?_
  intro other session stored
  rw [remove_peer_lookup] at stored
  by_cases self : other = peerId
  · simp [self] at stored
  · rw [if_neg self] at stored
    obtain ⟨connection, known, same⟩ := wired other session stored
    have apart : session.tx ≠ conn := by
      intro isOwn
      obtain ⟨leaving, leavingKnown, isPeer⟩ := own
      rw [isOwn, leavingKnown] at known
      obtain rfl := Option.some.inj known
      exact self (same.symm.trans isPeer)
    exact ⟨connection, by rw [remove_peer_connections, Table.lookup_erase_eq, if_neg apart, known], same⟩

-- A changed `written` or a `live` that ends leaves the session entries and what
-- was received as they are.
theorem modified_lookup (server : SignalServer) (conn other : ConnId) (change : Connection → Connection) :
    (Table.modify conn change server.connections).lookup other =
      if other = conn then (server.connections.lookup conn).map change else server.connections.lookup other :=
  Table.lookup_modify server.connections conn other change

theorem handle_forwarded (server : SignalServer) (fromPeer toPeer : String) (message : SignalMessage)
    (target : message.toPeer = some toPeer) :
    server.handleSignalMessage fromPeer message = server.sendToPeer toPeer ⟨message, some fromPeer⟩ := by
  cases message with
  | offer _ _ _ | answer _ _ _ | iceCandidate _ _ _ =>
      obtain rfl := Option.some.inj target
      rfl
  | _ => cases target

theorem handle_unaddressed (server : SignalServer) (fromPeer : String) (message : SignalMessage)
    (target : message.toPeer = none) : (server.handleSignalMessage fromPeer message).peers = server.peers ∧
      (server.handleSignalMessage fromPeer message).connections = server.connections ∧
      (server.handleSignalMessage fromPeer message).events = server.events := by
  cases message with
  | offer _ _ _ | answer _ _ _ | iceCandidate _ _ _ => cases target
  | _ => exact ⟨rfl, rfl, rfl⟩

theorem handled_authentic_iff (server : SignalServer) (fromPeer : String) (message : SignalMessage)
    (wired : server.Wired) (authentic : server.Authentic) :
    (server.handleSignalMessage fromPeer message).Authentic ↔
      ∀ toPeer, message.toPeer = some toPeer → toPeer ∈ server.peers → message.fromPeer = some fromPeer := by
  cases target : message.toPeer with
  | none =>
      have unchanged := (server.handle_unaddressed fromPeer message target).2.1
      constructor
      · intro _ toPeer isTarget
        cases isTarget
      · intro _ conn connection stored
        rw [unchanged] at stored
        exact authentic conn connection stored
  | some toPeer =>
      obtain ⟨claimed, claims⟩ : ∃ claimed, message.fromPeer = some claimed := by
        cases message <;> first | exact ⟨_, rfl⟩ | simp [SignalMessage.toPeer] at target
      rw [server.handle_forwarded fromPeer toPeer message target]
      constructor
      · intro after other isTarget present
        obtain rfl : toPeer = other := Option.some.inj isTarget
        obtain ⟨session, known⟩ := Table.lookup_of_mem present
        obtain ⟨connection, stored, _⟩ := wired toPeer session known
        have grown : (server.sendToPeer toPeer ⟨message, some fromPeer⟩).connections.lookup session.tx =
            some { connection with received := connection.received ++ [⟨message, some fromPeer⟩] } := by
          simp only [sendToPeer, known, send_lookup, if_true, stored, Option.map_some]
        have authenticLast := after session.tx _ grown ⟨message, some fromPeer⟩ (by simp) claimed claims
        exact claims.trans authenticLast.symm
      · intro names
        by_cases present : toPeer ∈ server.peers
        · have same := names toPeer rfl present
          have allowed : AuthenticDelivery ⟨message, some fromPeer⟩ := fun other isOther => same.symm.trans isOther
          rw [(server.send_to_peer_delivers AuthenticDelivery toPeer _ allowed).authentic_iff]
          exact authentic
        · have absent : server.peers.lookup toPeer = none := AList.lookup_eq_none.mpr present
          rw [sendToPeer, absent]
          exact authentic

theorem handled_delivers (server : SignalServer) (fromPeer : String) (message : SignalMessage) :
    Delivers (fun _ => True) server (server.handleSignalMessage fromPeer message) := by
  cases target : message.toPeer with
  | none =>
      obtain ⟨peers, connections, events⟩ := server.handle_unaddressed fromPeer message target
      refine ⟨peers, events, fun conn => ⟨[], by simp, ?_⟩⟩
      rw [connections]
      cases server.connections.lookup conn <;> simp
  | some toPeer =>
      rw [server.handle_forwarded fromPeer toPeer message target]
      exact server.send_to_peer_delivers _ toPeer _ trivial

def Consistent (server : SignalServer) : Prop := server.Routed ∧ server.Authentic

theorem pumped_keeps (server : SignalServer) (conn : ConnId) (change : Connection → Connection)
    (same : ∀ connection, (change connection).peerId = connection.peerId ∧
      (change connection).received = connection.received ∧ ((change connection).live = true → connection.live = true))
    (consistent : server.Consistent) :
    Consistent { server with connections := Table.modify conn change server.connections } := by
  have source : ∀ other connection, (Table.modify conn change server.connections).lookup other = some connection →
      ∃ before, server.connections.lookup other = some before ∧ connection.peerId = before.peerId ∧
        connection.received = before.received ∧ (connection.live = true → before.live = true) := by
    intro other connection stored
    rw [modified_lookup] at stored
    by_cases self : other = conn
    · rw [if_pos self] at stored
      obtain ⟨before, known, rfl⟩ := Option.map_eq_some_iff.mp stored
      exact ⟨before, self ▸ known, same before⟩
    · rw [if_neg self] at stored
      exact ⟨connection, stored, rfl, rfl, id⟩
  refine ⟨?_, ?_⟩
  · intro other connection stored live
    obtain ⟨before, known, samePeer, _, wasLive⟩ := source other connection stored
    rw [samePeer]
    exact consistent.1 other before known (wasLive live)
  · intro other connection stored
    obtain ⟨before, known, _, sameReceived, _⟩ := source other connection stored
    rw [sameReceived]
    exact consistent.2 other before known

theorem pumped_wired (server : SignalServer) (conn : ConnId) (change : Connection → Connection)
    (same : ∀ connection, (change connection).peerId = connection.peerId) (wired : server.Wired) :
    Wired { server with connections := Table.modify conn change server.connections } := by
  intro peerId session stored
  obtain ⟨connection, known, isPeer⟩ := wired peerId session stored
  by_cases self : session.tx = conn
  · refine ⟨change connection, ?_, (same connection).trans isPeer⟩
    rw [modified_lookup, if_pos self, ← self, known, Option.map_some]
  · exact ⟨connection, by rw [modified_lookup, if_neg self, known], isPeer⟩

theorem apply_wired (server : SignalServer) (op : SignalOp) (wired : server.Wired) : (server.apply op).Wired := by
  rw [apply]
  cases taken : server.branch op with
  | ignored => exact wired
  | registered conn peerId track capacity response =>
      have fresh := (server.branch_registered op conn peerId track capacity response taken).1
      exact (server.register_delivers conn peerId track capacity response).wired
        (server.enrolled_wired conn peerId track capacity wired fresh)
  | handled conn fromPeer message => exact (server.handled_delivers fromPeer message).wired wired
  | written conn => exact server.pumped_wired conn _ (fun _ => rfl) wired
  | muted conn => exact server.pumped_wired conn _ (fun _ => rfl) wired
  | left conn peerId => exact server.left_wired conn peerId wired (server.branch_known op conn peerId (.inr taken))

-- Who is open under which id after a step.
theorem apply_open (server : SignalServer) (op : SignalOp) (other : ConnId) (id : String) :
    (server.apply op).OpenAs other id ↔
      match server.branch op with
      | .registered conn peerId _ _ _ => if other = conn then id = peerId else server.OpenAs other id
      | .muted conn => other ≠ conn ∧ server.OpenAs other id
      | .left conn _ => other ≠ conn ∧ server.OpenAs other id
      | _ => server.OpenAs other id := by
  rw [apply]
  cases taken : server.branch op with
  | ignored => exact Iff.rfl
  | registered conn peerId track capacity response =>
      rw [perform, (server.register_delivers conn peerId track capacity response).open_iff]
      rw [OpenAs, enrolled, Table.lookup_insert_eq]
      dsimp only
      by_cases self : other = conn
      · rw [if_pos self, if_pos self]
        constructor
        · rintro ⟨connection, stored, _, same⟩
          obtain rfl := Option.some.inj stored
          exact same.symm
        · rintro rfl
          exact ⟨⟨id, true, [], 0⟩, rfl, rfl, rfl⟩
      · simp [self, OpenAs]
  | handled conn fromPeer message => exact (server.handled_delivers fromPeer message).open_iff other id
  | written conn =>
      rw [perform, OpenAs, OpenAs, modified_lookup]
      by_cases self : other = conn
      · rw [if_pos self, self]
        cases server.connections.lookup conn <;> simp
      · rw [if_neg self]
  | muted conn =>
      rw [perform, OpenAs, modified_lookup]
      by_cases self : other = conn
      · rw [if_pos self]
        cases server.connections.lookup conn <;> simp [self]
      · simp [self, OpenAs]
  | left conn peerId =>
      rw [perform, (server.finish_delivers conn peerId).open_iff, OpenAs, remove_peer_connections, Table.lookup_erase_eq]
      by_cases self : other = conn
      · simp [self]
      · simp [self, OpenAs]

-- The calls of the peer callback in one step.
theorem apply_events (server : SignalServer) (op : SignalOp) :
    (server.apply op).events = server.events ++
      match server.branch op with
      | .registered _ peerId track capacity _ => [⟨peerId, track, capacity, true⟩]
      | .left _ peerId =>
          match server.peers.lookup peerId with
          | some session => [⟨peerId, session.track, none, false⟩]
          | none => []
      | _ => [] := by
  rw [apply]
  cases taken : server.branch op with
  | ignored => exact (List.append_nil server.events).symm
  | registered conn peerId track capacity response =>
      exact (server.register_delivers conn peerId track capacity response).events
  | handled conn fromPeer message =>
      exact (server.handled_delivers fromPeer message).events.trans (List.append_nil server.events).symm
  | written conn => exact (List.append_nil server.events).symm
  | muted conn => exact (List.append_nil server.events).symm
  | left conn peerId =>
      rw [perform, (server.finish_delivers conn peerId).events, removePeer]
      cases known : server.peers.lookup peerId with
      | none => simp only [known, List.append_nil]
      | some session => simp only [known]

theorem step_identity_iff (server : SignalServer) (op : SignalOp) (wired : server.Wired)
    (consistent : server.Consistent) : (server.apply op).Consistent ↔ server.KeepsIdentity op := by
  obtain ⟨routed, authentic⟩ := consistent
  rw [apply, KeepsIdentity]
  cases taken : server.branch op with
  | ignored => exact ⟨fun _ => trivial, fun _ => ⟨routed, authentic⟩⟩
  | registered conn peerId track capacity response =>
      have delivers := server.register_delivers conn peerId track capacity response
      have exact' := server.enrolled_routed_iff conn peerId track capacity routed
      have kept := server.enrolled_authentic_iff conn peerId track capacity authentic
      exact ⟨fun after => exact'.mp (delivers.routed_iff.mp after.1),
        fun alone => ⟨delivers.routed_iff.mpr (exact'.mpr alone), delivers.authentic_iff.mpr kept⟩⟩
  | handled conn fromPeer message =>
      have delivers := server.handled_delivers fromPeer message
      have exact' := server.handled_authentic_iff fromPeer message wired authentic
      exact ⟨fun after => exact'.mp after.2, fun names => ⟨delivers.routed_iff.mpr routed, exact'.mpr names⟩⟩
  | written conn =>
      exact ⟨fun _ => trivial, fun _ => server.pumped_keeps conn _ (fun _ => ⟨rfl, rfl, id⟩) ⟨routed, authentic⟩⟩
  | muted conn =>
      exact ⟨fun _ => trivial, fun _ => server.pumped_keeps conn _ (fun _ => ⟨rfl, rfl, by simp⟩) ⟨routed, authentic⟩⟩
  | left conn peerId =>
      exact ⟨fun after => (server.left_routed_iff conn peerId routed).mp after.1,
        fun alone => ⟨(server.left_routed_iff conn peerId routed).mpr alone, server.left_authentic conn peerId authentic⟩⟩

theorem guarded_spares (server : SignalServer) (op : SignalOp) (keeps : server.KeepsIdentity op) :
    server.DisconnectSpares op := by
  intro conn peerId taken other connection differs stored live
  rw [KeepsIdentity, taken] at keeps
  have apart : connection.peerId ≠ peerId := fun same => keeps ⟨other, differs, connection, stored, live, same⟩
  rw [apply, taken]
  refine ⟨(server.finish_lookup conn peerId connection.peerId).trans (if_neg apart), ?_⟩
  intro event member _ same
  have calls := server.apply_events op
  rw [apply, taken] at calls
  rw [calls, List.drop_left] at member
  have about : event.peerId = peerId := by
    cases known : server.peers.lookup peerId with
    | none => simp [known] at member
    | some session =>
        simp only [known, List.mem_singleton] at member
        rw [member]
  exact apart (same.symm.trans about)

theorem new_consistent : new.Consistent := by
  refine ⟨?_, ?_⟩ <;> simp [new, Routed, Authentic]

theorem new_wired : new.Wired := by
  intro peerId session stored
  simp [new] at stored

end SignalServer

open SignalServer

-- Disconnects spare other connections, messages to an id reach the connection
-- that is open under it and forwarded messages name their sender, all through
-- exactly the runs in which no two connections are open under one id and every
-- forwarded message names the id its sender registered.
theorem signaling_identity_iff (ops : List SignalOp) :
    ((∀ seen, seen <+: ops → (Machine.run apply new seen).Consistent) ∧
        Machine.AllSteps DisconnectSpares apply new ops) ↔ Machine.AllSteps KeepsIdentity apply new ops := by
  have both := Machine.invariant_iff_guarded_under apply_wired step_identity_iff new ops new_wired new_consistent
  constructor
  · rintro ⟨consistent, _⟩
    exact both.mp consistent
  · intro keeps
    exact ⟨both.mpr keeps, Machine.all_steps_mono guarded_spares new ops keeps⟩

-- The viewer reconnects under its id before the server sees its old connection
-- fail.
def viewerReconnects : List SignalOp :=
  [.first 0 (.text (.ok (.register "viewer" "live/demo" none))) none,
    .first 1 (.text (.ok (.register "viewer" "live/demo" none))) none,
    .receive 0 (.failed "connection reset")]

theorem old_disconnect_removes_new_session :
    ¬ ∀ ops : List SignalOp, (∀ seen, seen <+: ops → (Machine.run apply new seen).Consistent) ∧
      Machine.AllSteps DisconnectSpares apply new ops := by
  intro always
  have routed := ((always viewerReconnects).1 viewerReconnects (List.prefix_refl _)).1
  have session : (Machine.run apply new viewerReconnects).connections.lookup 1 =
      some ⟨"viewer", true, [], 0⟩ := by decide
  have gone : (Machine.run apply new viewerReconnects).peers.lookup "viewer" = none := by decide
  have routes := routed 1 _ session rfl
  rw [gone] at routes
  cases routes

end Lvqr.Signal
