import Mathlib.Algebra.Group.Nat.Defs
import Mathlib.Data.List.Basic

set_option autoImplicit false

-- Broadcast claims of one node: the leases in its chitchat state, the renewer task
-- of each claim and the lock that guards the state.
namespace Lvqr.Cluster

def broadcastKeyPrefix : String := "broadcast."

def broadcastKey (name : String) : String := broadcastKeyPrefix ++ name

-- Durations and times are in milliseconds.
def minLease : Nat := 100

def u64Max : Nat := 2 ^ 64 - 1

structure Lease where
  owner : String
  expiresAtMs : Nat
deriving DecidableEq, Repr

-- A write to the node's key space; none is a tombstone. `claim` is who wrote it.
structure LeaseWrite where
  claim : Nat
  key : String
  lease : Option Lease
deriving DecidableEq, Repr

-- Where the renewer of a claim stands: before it is spawned, in its `select`, in the
-- arm of the ticker with the expiry it is to write, in the arm of the stop signal, or
-- through. An abandoned claim is a future dropped before its lease was written.
inductive RenewerPhase where
  | claiming
  | abandoned
  | selecting
  | renewing (expiresAtMs : Nat)
  | releasing
  | finished
  | cancelled
deriving DecidableEq, Repr

-- `polled` holds while a worker polls the renewer. `aborted` is how many claims the
-- node had made when this one was dropped.
structure Claim where
  broadcast : String
  lease : Nat
  phase : RenewerPhase
  polled : Bool
  stopped : Bool
  aborted : Option Nat
deriving DecidableEq, Repr

-- `other` is any other user of the chitchat state, the gossip server among them.
inductive Waiter where
  | claim (index : Nat)
  | other (user : Nat)
deriving DecidableEq, Repr

-- The lock is fair: its queue is served in order and the first in it holds the lock.
-- The newest write comes first.
structure ChitchatNode where
  owner : String
  queue : List Waiter
  writes : List LeaseWrite
  claims : List Claim
deriving DecidableEq, Repr

-- `advance` is one piece of the poll that runs, up to the next point where another
-- thread can be seen; `tick` is whether the ticker is due. `signal` and `abort` are
-- the two halves of dropping a claim.
inductive LeaseOp where
  | claim (name : String) (lease : Nat)
  | publish (index now : Nat)
  | abandon (index : Nat)
  | poll (index : Nat)
  | advance (index : Nat) (tick : Bool) (now : Nat)
  | signal (index : Nat)
  | abort (index : Nat)
  | lock (user : Nat)
  | unlock (user : Nat)
deriving DecidableEq, Repr

def Claim.running (claim : Claim) : Bool :=
  match claim.phase with
  | .selecting | .renewing _ | .releasing => true
  | _ => false

namespace ChitchatNode

def new (owner : String) : ChitchatNode := ⟨owner, [], [], []⟩

def setClaim (node : ChitchatNode) (index : Nat) (claim : Claim) : ChitchatNode :=
  { node with claims := node.claims.set index claim }

def join (node : ChitchatNode) (waiter : Waiter) : ChitchatNode := { node with queue := node.queue ++ [waiter] }

def leave (node : ChitchatNode) (waiter : Waiter) : ChitchatNode := { node with queue := node.queue.erase waiter }

def writeLease (node : ChitchatNode) (index : Nat) (claim : Claim) (expiresAtMs : Nat) : ChitchatNode :=
  { node with writes := ⟨index, broadcastKey claim.broadcast, some ⟨node.owner, expiresAtMs⟩⟩ :: node.writes }

def deleteLease (node : ChitchatNode) (index : Nat) (claim : Claim) : ChitchatNode :=
  { node with writes := ⟨index, broadcastKey claim.broadcast, none⟩ :: node.writes }

-- The runtime drops the future, and with it a place in the queue.
def cancel (node : ChitchatNode) (index : Nat) (claim : Claim) : ChitchatNode :=
  (node.leave (.claim index)).setClaim index { claim with phase := .cancelled, polled := false }

-- The poll returns; an abort that came during it takes effect now.
def suspend (node : ChitchatNode) (index : Nat) (claim : Claim) : ChitchatNode :=
  if claim.aborted.isSome then node.cancel index claim
  else node.setClaim index { claim with polled := false }

def withLock (node : ChitchatNode) (index : Nat) (claim : Claim) (held : ChitchatNode) : ChitchatNode :=
  if .claim index ∈ node.queue then
    if node.queue.head? = some (.claim index) then held.leave (.claim index)
    else node.suspend index claim
  else node.join (.claim index)

def advance (node : ChitchatNode) (index : Nat) (claim : Claim) (tick : Bool) (now : Nat) : ChitchatNode :=
  match claim.phase with
  | .selecting =>
      if claim.stopped then node.setClaim index { claim with phase := .releasing }
      else if tick then node.setClaim index { claim with phase := .renewing (min (now + claim.lease) u64Max) }
      else node.suspend index claim
  | .renewing expiresAtMs =>
      node.withLock index claim
        ((node.writeLease index claim expiresAtMs).setClaim index { claim with phase := .selecting })
  | .releasing =>
      node.withLock index claim
        ((node.deleteLease index claim).setClaim index { claim with phase := .finished, polled := false })
  | _ => node

def poll (node : ChitchatNode) (index : Nat) (claim : Claim) : ChitchatNode :=
  if claim.running && !claim.polled then
    if claim.aborted.isSome then node.cancel index claim
    else node.setClaim index { claim with polled := true }
  else node

-- The initial lease is written under the lock, then the renewer is spawned.
def publish (node : ChitchatNode) (index : Nat) (claim : Claim) (now : Nat) : ChitchatNode :=
  if claim.phase = .claiming && node.queue.head? = some (.claim index) then
    ((node.writeLease index claim ((now + claim.lease) % 2 ^ 64)).setClaim index
      { claim with phase := .selecting }).leave (.claim index)
  else node

def abandon (node : ChitchatNode) (index : Nat) (claim : Claim) : ChitchatNode :=
  if claim.phase = .claiming then (node.leave (.claim index)).setClaim index { claim with phase := .abandoned }
  else node

-- Only a claim that was handed out can be dropped.
def signal (node : ChitchatNode) (index : Nat) (claim : Claim) : ChitchatNode :=
  if claim.phase = .claiming || claim.phase = .abandoned then node
  else node.setClaim index { claim with stopped := true }

def abort (node : ChitchatNode) (index : Nat) (claim : Claim) : ChitchatNode :=
  if claim.stopped && claim.aborted.isNone then
    node.setClaim index { claim with aborted := some node.claims.length }
  else node

def onClaim (node : ChitchatNode) (index : Nat) (act : Claim → ChitchatNode) : ChitchatNode :=
  match node.claims[index]? with
  | some claim => act claim
  | none => node

def step (node : ChitchatNode) : LeaseOp → ChitchatNode
  | .claim name lease =>
      { node.join (.claim node.claims.length) with
        claims := node.claims ++ [⟨name, max lease minLease, .claiming, false, false, none⟩] }
  | .publish index now => node.onClaim index fun claim => node.publish index claim now
  | .abandon index => node.onClaim index (node.abandon index)
  | .poll index => node.onClaim index (node.poll index)
  | .advance index tick now => node.onClaim index fun claim =>
      if claim.polled then node.advance index claim tick now else node
  | .signal index => node.onClaim index (node.signal index)
  | .abort index => node.onClaim index (node.abort index)
  | .lock user => if .other user ∈ node.queue then node else node.join (.other user)
  | .unlock user => node.leave (.other user)

end ChitchatNode

end Lvqr.Cluster
