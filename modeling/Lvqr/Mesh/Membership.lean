import Lvqr.Mesh.Outcome
import Lvqr.Signal.Identity

set_option autoImplicit false

-- The coordinator with the parties that add and remove its entries: WebSocket
-- relay sessions, the signaling server and the reaper.
namespace Lvqr.Mesh

open Signal (ConnId SignalServer SignalOp Inbound IceServer ParentAssignment PeerEvent)

def PeerRole.debug : PeerRole → String
  | .root => "Root"
  | .relay => "Relay"
  | .leaf => "Leaf"

-- Times are in milliseconds. An entry's `last_heartbeat` is kept beside it: it is
-- the time the entry was made, as no session ever calls `heartbeat`. `relays` has
-- the mesh peer id of every open relay session; `enrolled` are the signaling
-- connections whose registration found or made an entry.
structure Deployment where
  mesh : MeshCoordinator
  lastHeartbeat : Table PeerId Nat
  heartbeatTimeout : Nat
  maxPeers : Nat
  iceServers : List IceServer
  now : Nat
  peerCounter : Nat
  relays : Table ConnId (Option PeerId)
  signal : SignalServer
  enrolled : List ConnId

inductive DeploymentOp where
  | advance (elapsed : Nat)
  | relay (conn : ConnId) (found playable : Bool) (order : List PeerId)
  | relayMessage (conn : ConnId)
  | relayEnd (conn : ConnId) (orders : PeerId → List PeerId)
  | register (conn : ConnId) (inbound : Inbound) (order : List PeerId)
  | receive (conn : ConnId) (inbound : Inbound) (orders : PeerId → List PeerId)
  | outgoing (conn : ConnId) (sent : Bool) (orders : PeerId → List PeerId)
  | reap (orders : PeerId → PeerId → List PeerId)

namespace Deployment

def start (config : MeshConfig) (heartbeatTimeout maxPeers : Nat) (iceServers : List IceServer) : Deployment :=
  ⟨.new config, ∅, heartbeatTimeout, maxPeers, iceServers, 0, 0, ∅, .new, []⟩

def addPeer (deployment : Deployment) (id : PeerId) (capacity : Option Nat) (order : List PeerId) :
    Except MeshError PeerAssignment × Deployment :=
  match deployment.mesh.addPeer id capacity order with
  | (.ok assignment, mesh) =>
      (.ok assignment,
        { deployment with mesh := mesh, lastHeartbeat := deployment.lastHeartbeat.insert id deployment.now })
  | (.error error, mesh) => (.error error, { deployment with mesh := mesh })

-- `remove_peer`, then `reassign_peer` for every orphan, as all three parties do.
def removePeer (deployment : Deployment) (orders : PeerId → List PeerId) (id : PeerId) : Deployment :=
  let (orphans, mesh) := deployment.mesh.removePeer id
  { deployment with
    mesh := orphans.foldl (fun mesh orphan => (mesh.reassignPeer orphan (orders orphan)).2) mesh
    lastHeartbeat := deployment.lastHeartbeat.erase id }

def dead (deployment : Deployment) (id : PeerId) : Bool :=
  match deployment.lastHeartbeat.lookup id with
  | some heartbeat => deployment.heartbeatTimeout < deployment.now - heartbeat
  | none => true

def findDeadPeers (deployment : Deployment) : List PeerId := deployment.mesh.peers.keys.filter deployment.dead

def reap (deployment : Deployment) (orders : PeerId → PeerId → List PeerId) : Deployment :=
  deployment.findDeadPeers.foldl (fun deployment id => deployment.removePeer (orders id) id) deployment

def wsPeerId (deployment : Deployment) : PeerId := "ws-" ++ toString deployment.peerCounter

-- A session that finds no playable track returns after it has been registered.
def wsRelaySession (deployment : Deployment) (conn : ConnId) (found playable : Bool) (order : List PeerId) : Deployment :=
  if !found then deployment
  else
    let (result, registered) := deployment.addPeer deployment.wsPeerId none order
    let counted := { registered with peerCounter := deployment.peerCounter + 1 }
    let meshPeerId :=
      match result with
      | .ok _ => some deployment.wsPeerId
      | .error _ => none
    if !playable then counted
    else { counted with relays := counted.relays.insert conn meshPeerId }

def endRelay (deployment : Deployment) (conn : ConnId) (orders : PeerId → List PeerId) : Deployment :=
  match deployment.relays.lookup conn with
  | none => deployment
  | some meshPeerId =>
      let closed := { deployment with relays := deployment.relays.erase conn }
      match meshPeerId with
      | some id => closed.removePeer orders id
      | none => closed

-- The peer callback of the signaling server for a registration.
def onRegister (deployment : Deployment) (peerId : PeerId) (capacity : Option Nat) (order : List PeerId) :
    Option ParentAssignment × Deployment :=
  match deployment.mesh.peers.lookup peerId with
  | some existing => (some ⟨existing.role.debug, existing.parent, existing.depth, deployment.iceServers⟩, deployment)
  | none =>
      match deployment.addPeer peerId (capacity.map (min · deployment.maxPeers)) order with
      | (.ok assignment, added) =>
          (some ⟨assignment.role.debug, assignment.parent, assignment.depth, deployment.iceServers⟩, added)
      | (.error _, added) => (none, added)

-- The same callback for a peer that has left.
def onEvent (orders : PeerId → List PeerId) (deployment : Deployment) (event : PeerEvent) : Deployment :=
  if event.connected then deployment else deployment.removePeer orders event.peerId

def register (deployment : Deployment) (conn : ConnId) (inbound : Inbound) (order : List PeerId) : Deployment :=
  match deployment.signal.branch (.first conn inbound none) with
  | .registered _ peerId _ capacity _ =>
      let (response, called) := deployment.onRegister peerId capacity order
      { called with
        signal := deployment.signal.apply (.first conn inbound response)
        enrolled := if response.isSome then conn :: deployment.enrolled else deployment.enrolled.filter (· != conn) }
  | _ => deployment

def signalStep (deployment : Deployment) (op : SignalOp) (orders : PeerId → List PeerId) : Deployment :=
  let signal := deployment.signal.apply op
  (signal.events.drop deployment.signal.events.length).foldl (onEvent orders) { deployment with signal := signal }

def apply (deployment : Deployment) : DeploymentOp → Deployment
  | .advance elapsed => { deployment with now := deployment.now + elapsed }
  | .relay conn found playable order =>
      match deployment.relays.lookup conn with
      | some _ => deployment
      | none => deployment.wsRelaySession conn found playable order
  | .relayMessage _ => deployment
  | .relayEnd conn orders => deployment.endRelay conn orders
  | .register conn inbound order => deployment.register conn inbound order
  | .receive conn inbound orders => deployment.signalStep (.receive conn inbound) orders
  | .outgoing conn sent orders => deployment.signalStep (.outgoing conn sent) orders
  | .reap orders => deployment.reap orders

inductive Session where
  | relay (conn : ConnId)
  | signal (conn : ConnId)
deriving DecidableEq

-- The session is open and registered the entry.
def Holds (deployment : Deployment) (id : PeerId) : Session → Prop
  | .relay conn => deployment.relays.lookup conn = some (some id)
  | .signal conn => deployment.signal.OpenAs conn id ∧ conn ∈ deployment.enrolled

def Held (deployment : Deployment) (id : PeerId) : Prop := ∃ session, deployment.Holds id session

def HeldElsewhere (deployment : Deployment) (id : PeerId) (session : Session) : Prop :=
  ∃ other, other ≠ session ∧ deployment.Holds id other

def MembershipExact (deployment : Deployment) : Prop := ∀ id, id ∈ deployment.mesh.peers ↔ deployment.Held id

-- What a step of a signaling connection does to the entry of its peer.
def SignalKeeps (deployment : Deployment) (op : SignalOp) : Prop :=
  match deployment.signal.branch op with
  | .muted conn => ∀ id, deployment.Holds id (.signal conn) → deployment.HeldElsewhere id (.signal conn)
  | .left conn peerId =>
      if peerId ∈ deployment.signal.peers then ¬ deployment.HeldElsewhere peerId (.signal conn)
      else deployment.Holds peerId (.signal conn) → deployment.HeldElsewhere peerId (.signal conn)
  | _ => True

-- A relay session without a playable track got no entry of its own, a session
-- that ends was the only one to hold its entry, a signaling socket that only ends
-- was not, and no entry is older than the timeout when the reaper runs.
def KeepsMembership (deployment : Deployment) : DeploymentOp → Prop
  | .relay conn found playable order => deployment.relays.lookup conn = none → found = true → playable = false →
      ∀ parent, deployment.mesh.placement order = .ok parent → deployment.wsPeerId ∈ deployment.mesh.peers
  | .relayEnd conn _ => ∀ id, deployment.Holds id (.relay conn) → ¬ deployment.HeldElsewhere id (.relay conn)
  | .receive conn inbound _ => deployment.SignalKeeps (.receive conn inbound)
  | .outgoing conn sent _ => deployment.SignalKeeps (.outgoing conn sent)
  | .reap _ => ∀ id ∈ deployment.mesh.peers, deployment.dead id = false
  | _ => True

theorem reassign_present (mesh : MeshCoordinator) (id other : PeerId) (order : List PeerId) :
    other ∈ (mesh.reassignPeer id order).2.peers ↔ other ∈ mesh.peers := by
  have present := mesh.apply_present (.reassignPeer id order) other
  cases known : mesh.peers.lookup id <;> cases best : mesh.findBestParent order <;>
    simpa [MeshCoordinator.apply, MeshCoordinator.outcome, known, best] using present

theorem remove_present (deployment : Deployment) (orders : PeerId → List PeerId) (id other : PeerId) :
    other ∈ (deployment.removePeer orders id).mesh.peers ↔ other ≠ id ∧ other ∈ deployment.mesh.peers := by
  have orphans : ∀ (ids : List PeerId) (mesh : MeshCoordinator),
      other ∈ (ids.foldl (fun mesh orphan => (mesh.reassignPeer orphan (orders orphan)).2) mesh).peers ↔
        other ∈ mesh.peers := by
    intro ids
    induction ids with
    | nil => exact fun mesh => Iff.rfl
    | cons orphan ids ih => exact fun mesh => (ih _).trans (reassign_present mesh orphan other (orders orphan))
  rw [removePeer, orphans]
  have present := deployment.mesh.apply_present (.removePeer id) other
  cases known : deployment.mesh.peers.lookup id with
  | none =>
      have absent : id ∉ deployment.mesh.peers := AList.lookup_eq_none.mp known
      rw [MeshCoordinator.apply, MeshCoordinator.outcome, known] at present
      rw [present]
      exact ⟨fun isPresent => ⟨fun same => absent (same ▸ isPresent), isPresent⟩, fun both => both.2⟩
  | some info =>
      rw [MeshCoordinator.apply, MeshCoordinator.outcome, known] at present
      exact present

theorem remove_holds (deployment : Deployment) (orders : PeerId → List PeerId) (gone id : PeerId) (session : Session) :
    (deployment.removePeer orders gone).Holds id session ↔ deployment.Holds id session := by
  cases session <;> exact Iff.rfl

theorem added (deployment : Deployment) (id : PeerId) (capacity : Option Nat) (order : List PeerId) :
    (∃ parent assignment lastHeartbeat mesh, deployment.mesh.placement order = .ok parent ∧
      deployment.addPeer id capacity order =
        (.ok assignment, { deployment with mesh := mesh, lastHeartbeat := lastHeartbeat }) ∧
      ∀ other, other ∈ mesh.peers ↔ other = id ∨ other ∈ deployment.mesh.peers) ∨
    ∃ error error', deployment.mesh.placement order = .error error ∧
      deployment.addPeer id capacity order = (.error error', deployment) := by
  have present := deployment.mesh.apply_present (.addPeer id capacity order)
  rcases deployment.mesh.add_result id capacity order with ⟨parent, assignment, placed, isOk⟩ | ⟨error, refused, isError⟩
  · have result : deployment.mesh.addPeer id capacity order =
        (.ok assignment, (deployment.mesh.addPeer id capacity order).2) := Prod.ext isOk rfl
    refine .inl ⟨parent, assignment, deployment.lastHeartbeat.insert id deployment.now,
      (deployment.mesh.addPeer id capacity order).2, placed, by rw [addPeer, result], fun other => ?_⟩
    simpa [MeshCoordinator.apply, MeshCoordinator.outcome, placed] using present other
  · have result : deployment.mesh.addPeer id capacity order = (.error error, deployment.mesh) :=
      Prod.ext isError (deployment.mesh.add_rejected id capacity order error refused)
    exact .inr ⟨error, error, refused, by rw [addPeer, result]⟩

-- A session ends and takes its entry with it.
theorem ended_removed_iff (before after : Deployment) (session : Session) (gone : PeerId)
    (matched : before.MembershipExact) (own : ∀ id, before.Holds id session → id = gone)
    (present : ∀ id, id ∈ after.mesh.peers ↔ id ≠ gone ∧ id ∈ before.mesh.peers)
    (holds : ∀ id other, after.Holds id other ↔ other ≠ session ∧ before.Holds id other) :
    after.MembershipExact ↔ ¬ before.HeldElsewhere gone session := by
  constructor
  · rintro stays ⟨other, differs, still⟩
    have here := (stays gone).mpr ⟨other, (holds gone other).mpr ⟨differs, still⟩⟩
    exact ((present gone).mp here).1 rfl
  · intro alone id
    rw [present]
    constructor
    · rintro ⟨differs, here⟩
      obtain ⟨other, held⟩ := (matched id).mp here
      have apart : other ≠ session := fun same => differs (own id (same ▸ held))
      exact ⟨other, (holds id other).mpr ⟨apart, held⟩⟩
    · rintro ⟨other, held⟩
      obtain ⟨apart, was⟩ := (holds id other).mp held
      exact ⟨fun same => alone ⟨other, apart, same ▸ was⟩, (matched id).mpr ⟨other, was⟩⟩

-- A session ends and leaves the entries as they are.
theorem ended_kept_iff (before after : Deployment) (session : Session) (matched : before.MembershipExact)
    (present : ∀ id, id ∈ after.mesh.peers ↔ id ∈ before.mesh.peers)
    (holds : ∀ id other, after.Holds id other ↔ other ≠ session ∧ before.Holds id other) :
    after.MembershipExact ↔ ∀ id, before.Holds id session → before.HeldElsewhere id session := by
  constructor
  · intro stays id held
    obtain ⟨other, still⟩ := (stays id).mp ((present id).mpr ((matched id).mpr ⟨session, held⟩))
    obtain ⟨differs, was⟩ := (holds id other).mp still
    exact ⟨other, differs, was⟩
  · intro elsewhere id
    rw [present, matched]
    constructor
    · rintro ⟨other, held⟩
      by_cases same : other = session
      · obtain ⟨further, differs, was⟩ := elsewhere id (same ▸ held)
        exact ⟨further, (holds id further).mpr ⟨differs, was⟩⟩
      · exact ⟨other, (holds id other).mpr ⟨same, held⟩⟩
    · rintro ⟨other, held⟩
      exact ⟨other, ((holds id other).mp held).2⟩

-- A session starts, with an entry or without.
theorem started_keeps (before after : Deployment) (session : Session) (holding : PeerId → Prop)
    (matched : before.MembershipExact) (fresh : ∀ id, ¬ before.Holds id session)
    (present : ∀ id, id ∈ after.mesh.peers ↔ holding id ∨ id ∈ before.mesh.peers)
    (holds : ∀ id other, after.Holds id other ↔ (other = session ∧ holding id) ∨ (other ≠ session ∧ before.Holds id other)) :
    after.MembershipExact := by
  intro id
  rw [present]
  constructor
  · rintro (own | here)
    · exact ⟨session, (holds id session).mpr (.inl ⟨rfl, own⟩)⟩
    · obtain ⟨other, held⟩ := (matched id).mp here
      have apart : other ≠ session := fun same => fresh id (same ▸ held)
      exact ⟨other, (holds id other).mpr (.inr ⟨apart, held⟩)⟩
  · rintro ⟨other, held⟩
    rcases (holds id other).mp held with ⟨_, own⟩ | ⟨_, was⟩
    · exact .inl own
    · exact .inr ((matched id).mpr ⟨other, was⟩)

theorem reap_exact_iff (deployment : Deployment) (orders : PeerId → PeerId → List PeerId)
    (matched : deployment.MembershipExact) :
    (deployment.reap orders).MembershipExact ↔ ∀ id ∈ deployment.mesh.peers, deployment.dead id = false := by
  have all : ∀ (ids : List PeerId) (start : Deployment),
      (∀ other, other ∈ (ids.foldl (fun deployment id => deployment.removePeer (orders id) id) start).mesh.peers ↔
        other ∉ ids ∧ other ∈ start.mesh.peers) ∧
      ∀ other session, (ids.foldl (fun deployment id => deployment.removePeer (orders id) id) start).Holds other session ↔
        start.Holds other session := by
    intro ids
    induction ids with
    | nil => exact fun start => ⟨fun other => by simp, fun other session => Iff.rfl⟩
    | cons id ids ih =>
        intro start
        obtain ⟨present, holds⟩ := ih (start.removePeer (orders id) id)
        refine ⟨fun other => ?_, fun other session => (holds other session).trans (start.remove_holds _ _ _ _)⟩
        rw [List.foldl_cons, present, remove_present, List.mem_cons, not_or]
        tauto
  obtain ⟨present, holds⟩ := all deployment.findDeadPeers deployment
  have isDead : ∀ id, id ∈ deployment.findDeadPeers ↔ id ∈ deployment.mesh.peers ∧ deployment.dead id = true := by
    intro id
    rw [findDeadPeers, List.mem_filter]
    exact Iff.rfl
  constructor
  · intro stays id here
    by_contra expired
    have removed : id ∈ deployment.findDeadPeers := (isDead id).mpr ⟨here, eq_true_of_ne_false expired⟩
    obtain ⟨session, held⟩ := (matched id).mp here
    have still := (stays id).mpr ⟨session, (holds id session).mpr held⟩
    exact ((present id).mp still).1 removed
  · intro alive id
    rw [reap, present, matched]
    have kept : id ∈ deployment.mesh.peers → id ∉ deployment.findDeadPeers := by
      intro here removed
      have expired := ((isDead id).mp removed).2
      rw [alive id here] at expired
      cases expired
    constructor
    · rintro ⟨_, session, held⟩
      exact ⟨session, (holds id session).mpr held⟩
    · rintro ⟨session, held⟩
      have was := (holds id session).mp held
      exact ⟨kept ((matched id).mpr ⟨session, was⟩), session, was⟩

theorem relay_exact_iff (deployment : Deployment) (conn : ConnId) (found playable : Bool) (order : List PeerId)
    (matched : deployment.MembershipExact) :
    (deployment.apply (.relay conn found playable order)).MembershipExact ↔
      deployment.KeepsMembership (.relay conn found playable order) := by
  rw [apply, KeepsMembership]
  cases known : deployment.relays.lookup conn with
  | some held => simp [matched]
  | none =>
      rw [wsRelaySession]
      cases found with
      | false => simp [matched]
      | true =>
          have fresh : ∀ id, ¬ deployment.Holds id (.relay conn) := by
            intro id held
            rw [Holds, known] at held
            cases held
          rcases deployment.added deployment.wsPeerId none order with
            ⟨parent, assignment, lastHeartbeat, mesh, placed, result, present⟩ | ⟨error, _, refused, result⟩
          · cases playable with
            | false =>
                simp only [result, placed, Bool.not_true, Bool.not_false, Bool.false_eq_true, if_false, if_true,
                  forall_const, Except.ok.injEq, forall_eq']
                constructor
                · intro stays
                  obtain ⟨session, held⟩ := (stays deployment.wsPeerId).mp ((present _).mpr (.inl rfl))
                  exact (matched deployment.wsPeerId).mpr ⟨session, by cases session <;> exact held⟩
                · intro here id
                  refine (present id).trans (Iff.trans ?_ (matched id))
                  exact ⟨fun either => either.elim (fun same => same ▸ here) (fun was => was), .inr⟩
            | true =>
                simp only [result, Bool.not_true, Bool.false_eq_true, if_false, reduceCtorEq, false_implies, implies_true,
                  iff_true]
                refine started_keeps deployment _ (.relay conn) (fun id => id = deployment.wsPeerId) matched fresh present ?_
                intro id other
                cases other with
                | signal other => simp [Holds]
                | relay other =>
                    rw [Holds, Table.lookup_insert_eq]
                    by_cases self : other = conn
                    · simp [self, eq_comm]
                    · simp [self, Holds]
          · cases playable with
            | false =>
                simp only [result, refused, Bool.not_true, Bool.not_false, Bool.false_eq_true, if_false, if_true,
                  reduceCtorEq, false_implies, implies_true, iff_true]
                exact matched
            | true =>
                simp only [result, Bool.not_true, Bool.false_eq_true, if_false, reduceCtorEq, false_implies, implies_true,
                  iff_true]
                refine started_keeps deployment _ (.relay conn) (fun _ => False) matched fresh (by simp) ?_
                intro id other
                cases other with
                | signal other => simp [Holds]
                | relay other =>
                    rw [Holds, Table.lookup_insert_eq]
                    by_cases self : other = conn
                    · simp [self]
                    · simp [self, Holds]

theorem relay_end_exact_iff (deployment : Deployment) (conn : ConnId) (orders : PeerId → List PeerId)
    (matched : deployment.MembershipExact) :
    (deployment.endRelay conn orders).MembershipExact ↔
      ∀ id, deployment.Holds id (.relay conn) → ¬ deployment.HeldElsewhere id (.relay conn) := by
  rw [endRelay]
  have closed : ∀ id other, Holds { deployment with relays := deployment.relays.erase conn } id other ↔
      other ≠ .relay conn ∧ deployment.Holds id other := by
    intro id other
    cases other with
    | signal other => simp [Holds]
    | relay other =>
        rw [Holds, Table.lookup_erase_eq]
        by_cases self : other = conn
        · simp [self]
        · simp [self, Holds]
  cases known : deployment.relays.lookup conn with
  | none => simp [Holds, known, matched]
  | some meshPeerId =>
      cases meshPeerId with
      | none =>
          dsimp only
          rw [ended_kept_iff deployment { deployment with relays := deployment.relays.erase conn } (.relay conn) matched
            (fun _ => Iff.rfl) closed]
          simp [Holds, known]
      | some id =>
          dsimp only
          have own : ∀ other, deployment.Holds other (.relay conn) → other = id := by
            intro other held
            rw [Holds, known] at held
            exact (Option.some.inj (Option.some.inj held)).symm
          have ends := ended_removed_iff deployment
            (removePeer { deployment with relays := deployment.relays.erase conn } orders id) (.relay conn) id matched own
            (remove_present _ orders id) fun other session => (remove_holds _ orders id other session).trans (closed other session)
          rw [ends]
          simp [Holds, known]

theorem signal_step_rest (deployment : Deployment) (op : SignalOp) (orders : PeerId → List PeerId) :
    deployment.signalStep op orders =
      match deployment.signal.branch op with
      | .left _ peerId =>
          if peerId ∈ deployment.signal.peers then
            removePeer { deployment with signal := deployment.signal.apply op } orders peerId
          else { deployment with signal := deployment.signal.apply op }
      | _ => { deployment with signal := deployment.signal.apply op } := by
  rw [signalStep, deployment.signal.apply_events op, List.drop_left]
  cases taken : deployment.signal.branch op with
  | left conn peerId =>
      cases known : deployment.signal.peers.lookup peerId with
      | none =>
          have absent : peerId ∉ deployment.signal.peers := AList.lookup_eq_none.mp known
          simp [known, absent]
      | some session =>
          have present : peerId ∈ deployment.signal.peers := Table.mem_of_lookup known
          simp [known, present, onEvent]
  | _ => simp [onEvent]

theorem signal_exact_iff (deployment : Deployment) (op : SignalOp) (orders : PeerId → List PeerId)
    (later : ∀ conn inbound response, op ≠ .first conn inbound response) (matched : deployment.MembershipExact) :
    (deployment.signalStep op orders).MembershipExact ↔ deployment.SignalKeeps op := by
  have opens := deployment.signal.apply_open op
  rw [signal_step_rest, SignalKeeps]
  cases taken : deployment.signal.branch op with
  | registered conn peerId track capacity response =>
      obtain ⟨_, inbound, isFirst, _⟩ := deployment.signal.branch_registered op conn peerId track capacity response taken
      exact absurd isFirst (later conn inbound response)
  | ignored | handled _ _ _ | written _ =>
      simp only [taken] at opens
      refine ⟨fun _ => trivial, fun _ id => (matched id).trans (exists_congr fun session => ?_)⟩
      cases session with
      | relay conn => exact Iff.rfl
      | signal conn => exact and_congr (opens conn id).symm Iff.rfl
  | muted conn =>
      simp only [taken] at opens
      refine ended_kept_iff deployment _ (.signal conn) matched (fun _ => Iff.rfl) fun id other => ?_
      cases other with
      | relay other => simp [Holds]
      | signal other => simp [Holds, opens, and_assoc]
  | left conn peerId =>
      simp only [taken] at opens
      obtain ⟨connection, known, isPeer⟩ := deployment.signal.branch_known op conn peerId (.inr taken)
      have own : ∀ id, deployment.Holds id (.signal conn) → id = peerId := by
        rintro id ⟨⟨held, stored, _, rfl⟩, _⟩
        obtain rfl : connection = held := Option.some.inj (known.symm.trans stored)
        exact isPeer
      have closed : ∀ id other, Holds { deployment with signal := deployment.signal.apply op } id other ↔
          other ≠ .signal conn ∧ deployment.Holds id other := by
        intro id other
        cases other with
        | relay other => simp [Holds]
        | signal other => simp [Holds, opens, and_assoc]
      by_cases present : peerId ∈ deployment.signal.peers
      · simp only [if_pos present]
        exact ended_removed_iff deployment
          (removePeer { deployment with signal := deployment.signal.apply op } orders peerId) (.signal conn) peerId matched own
          (remove_present _ orders peerId) fun other session =>
            (remove_holds _ orders peerId other session).trans (closed other session)
      · simp only [if_neg present]
        rw [ended_kept_iff deployment { deployment with signal := deployment.signal.apply op } (.signal conn) matched
          (fun _ => Iff.rfl) closed]
        constructor
        · exact fun elsewhere => elsewhere peerId
        · intro elsewhere id held
          obtain rfl := own id held
          exact elsewhere held

theorem register_keeps (deployment : Deployment) (conn : ConnId) (inbound : Inbound) (order : List PeerId)
    (matched : deployment.MembershipExact) : (deployment.register conn inbound order).MembershipExact := by
  rw [register]
  split
  · rename_i first peerId track capacity response taken
    obtain ⟨fresh, registering, isFirst, opened⟩ :=
      deployment.signal.branch_registered _ first peerId track capacity response taken
    obtain ⟨rfl, rfl, rfl⟩ : conn = first ∧ inbound = registering ∧ none = response := by simpa using isFirst
    have opens : ∀ answer other id, (deployment.signal.apply (.first conn inbound answer)).OpenAs other id ↔
        if other = conn then id = peerId else deployment.signal.OpenAs other id := by
      intro answer other id
      have branch : deployment.signal.branch (.first conn inbound answer) =
          .registered conn peerId track capacity answer := by
        rw [SignalServer.branch, fresh, opened]
      rw [deployment.signal.apply_open, branch]
    have unheld : ∀ id, ¬ deployment.Holds id (.signal conn) := by
      rintro id ⟨⟨connection, stored, _⟩, _⟩
      rw [fresh] at stored
      cases stored
    -- A registration that got an answer holds the entry of its peer from now on.
    have answered : ∀ (place : ParentAssignment) (after : Deployment), after.relays = deployment.relays →
        after.signal = deployment.signal.apply (.first conn inbound (some place)) →
        after.enrolled = conn :: deployment.enrolled →
        (∀ id, id ∈ after.mesh.peers ↔ id = peerId ∨ id ∈ deployment.mesh.peers) → after.MembershipExact := by
      intro place after relays signal enrolled present
      refine started_keeps deployment after (.signal conn) (fun id => id = peerId) matched unheld present ?_
      intro id other
      cases other with
      | relay other => simp [Holds, relays]
      | signal other =>
          rw [Holds, Holds, signal, enrolled, opens]
          by_cases self : other = conn
          · simp [self]
          · simp [self]
    rw [onRegister]
    cases known : deployment.mesh.peers.lookup peerId with
    | some existing =>
        have present : peerId ∈ deployment.mesh.peers := Table.mem_of_lookup known
        refine answered _ _ rfl rfl rfl fun id => ?_
        exact ⟨.inr, fun either => either.elim (fun same => same ▸ present) fun was => was⟩
    | none =>
        rcases deployment.added peerId (capacity.map (min · deployment.maxPeers)) order with
          ⟨parent, assignment, lastHeartbeat, mesh, placed, result, present⟩ | ⟨error, _, refused, result⟩
        · simp only [result]
          exact answered _ _ rfl rfl rfl present
        · simp only [result]
          refine started_keeps deployment _ (.signal conn) (fun _ => False) matched unheld (by simp) ?_
          intro id other
          cases other with
          | relay other => simp [Holds]
          | signal other =>
              rw [Holds, Holds, opens]
              by_cases self : other = conn
              · simp [self]
              · simp [self]
  · exact matched

theorem step_membership_iff (deployment : Deployment) (op : DeploymentOp) (matched : deployment.MembershipExact) :
    (deployment.apply op).MembershipExact ↔ deployment.KeepsMembership op := by
  cases op with
  | advance elapsed => exact ⟨fun _ => trivial, fun _ => matched⟩
  | relay conn found playable order => exact deployment.relay_exact_iff conn found playable order matched
  | relayMessage conn => exact ⟨fun _ => trivial, fun _ => matched⟩
  | relayEnd conn orders => exact deployment.relay_end_exact_iff conn orders matched
  | register conn inbound order => exact ⟨fun _ => trivial, fun _ => deployment.register_keeps conn inbound order matched⟩
  | receive conn inbound orders => exact deployment.signal_exact_iff _ orders (by simp) matched
  | outgoing conn sent orders => exact deployment.signal_exact_iff _ orders (by simp) matched
  | reap orders => exact deployment.reap_exact_iff orders matched

end Deployment

open Deployment

-- The mesh has an entry for exactly the peers with an open session, all through
-- exactly the runs in which nothing below goes wrong: the reaper finds an entry
-- older than the timeout, a session leaves without its entry or takes along the
-- entry of another.
theorem mesh_membership_iff (config : MeshConfig) (heartbeatTimeout maxPeers : Nat) (iceServers : List IceServer)
    (ops : List DeploymentOp) :
    (∀ seen, seen <+: ops →
        (Machine.run apply (start config heartbeatTimeout maxPeers iceServers) seen).MembershipExact) ↔
      Machine.AllSteps KeepsMembership apply (start config heartbeatTimeout maxPeers iceServers) ops := by
  refine Machine.invariant_iff_guarded step_membership_iff _ ops ?_
  intro id
  constructor
  · intro here
    simp [start, MeshCoordinator.new] at here
  · rintro ⟨session, held⟩
    cases session <;> simp [Holds, start, SignalServer.OpenAs, SignalServer.new] at held

-- A relay session that is busy all the time, and the reaper after ten seconds.
def busyViewer : List DeploymentOp :=
  [.relay 0 true true [], .advance 5000, .relayMessage 0, .advance 5001, .relayMessage 0, .reap fun _ _ => []]

theorem busy_viewer_reaped :
    ¬ ∀ (config : MeshConfig) (heartbeatTimeout maxPeers : Nat) (iceServers : List IceServer) (ops : List DeploymentOp),
      (Machine.run apply (start config heartbeatTimeout maxPeers iceServers) ops).MembershipExact := by
  intro always
  have matched := always oneRoot 10000 3 [] busyViewer "ws-0"
  have held : (Machine.run apply (start oneRoot 10000 3 []) busyViewer).relays.lookup 0 = some (some "ws-0") := by decide
  have gone : "ws-0" ∉ (Machine.run apply (start oneRoot 10000 3 []) busyViewer).mesh.peers := by decide
  exact gone (matched.mpr ⟨.relay 0, held⟩)

end Lvqr.Mesh
