import Lvqr.Lib.Table

set_option autoImplicit false

namespace Lvqr.Mesh

abbrev PeerId := String

inductive PeerRole where
  | root
  | relay
  | leaf
deriving DecidableEq, Repr

structure PeerInfo where
  id : PeerId
  role : PeerRole
  parent : Option PeerId
  children : List PeerId
  depth : Nat
  capacity : Option Nat
deriving DecidableEq, Repr

namespace PeerInfo

def new (id : PeerId) : PeerInfo where
  id := id
  role := .leaf
  parent := none
  children := []
  depth := 0
  capacity := none

def effectiveCapacity (peer : PeerInfo) (defaultMax : Nat) : Nat :=
  match peer.capacity with
  | some capacity => min capacity defaultMax
  | none => defaultMax

def childCount (peer : PeerInfo) : Nat := peer.children.length

def canAcceptChild (peer : PeerInfo) (defaultMax : Nat) : Bool :=
  decide (peer.childCount < peer.effectiveCapacity defaultMax)

end PeerInfo

structure MeshConfig where
  maxChildren : Nat
  rootPeerCount : Nat
  maxDepth : Nat
deriving DecidableEq, Repr

inductive MeshError where
  | peerNotFound (id : PeerId)
  | treeDepthExceeded (max : Nat)
  | noAvailableParent
deriving DecidableEq, Repr

structure PeerAssignment where
  peerId : PeerId
  role : PeerRole
  parent : Option PeerId
  depth : Nat
deriving DecidableEq, Repr

structure MeshCoordinator where
  config : MeshConfig
  peers : Table PeerId PeerInfo

structure Candidate where
  id : PeerId
  depth : Nat
  childCount : Nat

def Candidate.precedes (candidate best : Candidate) : Bool :=
  candidate.depth < best.depth || (candidate.depth == best.depth && candidate.childCount < best.childCount)

namespace MeshCoordinator

def new (config : MeshConfig) : MeshCoordinator := ⟨config, ∅⟩

def rootCount (mesh : MeshCoordinator) : Nat :=
  mesh.peers.entries.countP fun entry => entry.2.role == .root

def consider (config : MeshConfig) (best : Option Candidate) (peer : PeerInfo) : Option Candidate :=
  if !peer.canAcceptChild config.maxChildren then best
  else if config.maxDepth ≤ peer.depth then best
  else
    let candidate : Candidate := ⟨peer.id, peer.depth, peer.childCount⟩
    match best with
    | none => some candidate
    | some chosen => if candidate.precedes chosen then some candidate else best

-- `order` is the order in which the concurrent map yields its entries, which
-- decides between candidates of equal depth and load.
def findBestParent (mesh : MeshCoordinator) (order : List PeerId) : Except MeshError PeerId :=
  match (order.filterMap mesh.peers.lookup).foldl (consider mesh.config) none with
  | some best => .ok best.id
  | none => .error .noAvailableParent

def depthUnder (mesh : MeshCoordinator) (parent : PeerId) (unknown : Nat) : Nat :=
  match mesh.peers.lookup parent with
  | some info => info.depth + 1
  | none => unknown

def pushChild (parent child : PeerId) (peers : Table PeerId PeerInfo) : Table PeerId PeerInfo :=
  Table.modify parent (fun info => { info with children := info.children ++ [child] }) peers

def dropChild (parent child : PeerId) (peers : Table PeerId PeerInfo) : Table PeerId PeerInfo :=
  Table.modify parent (fun info => { info with children := info.children.filter (· != child) }) peers

def addPeer (mesh : MeshCoordinator) (id : PeerId) (capacity : Option Nat) (order : List PeerId) :
    Except MeshError PeerAssignment × MeshCoordinator :=
  let peer := { PeerInfo.new id with capacity := capacity }
  if mesh.rootCount < mesh.config.rootPeerCount then
    (.ok ⟨id, .root, none, 0⟩,
      { mesh with peers := mesh.peers.insert id { peer with role := .root, depth := 0 } })
  else
    match mesh.findBestParent order with
    | .error error => (.error error, mesh)
    | .ok parent =>
        let depth := mesh.depthUnder parent 1
        if mesh.config.maxDepth < depth then (.error (.treeDepthExceeded mesh.config.maxDepth), mesh)
        else
          let relay := { peer with role := .relay, parent := some parent, depth := depth }
          (.ok ⟨id, .relay, some parent, depth⟩,
            { mesh with peers := pushChild parent id (mesh.peers.insert id relay) })

def orphan (peers : Table PeerId PeerInfo) (child : PeerId) : Table PeerId PeerInfo :=
  Table.modify child (fun info => { info with parent := none }) peers

def removePeer (mesh : MeshCoordinator) (id : PeerId) : List PeerId × MeshCoordinator :=
  match mesh.peers.lookup id with
  | none => ([], mesh)
  | some peer =>
      let removed := mesh.peers.erase id
      let unlinked :=
        match peer.parent with
        | some parent => dropChild parent id removed
        | none => removed
      (peer.children, { mesh with peers := peer.children.foldl orphan unlinked })

def reassignPeer (mesh : MeshCoordinator) (id : PeerId) (order : List PeerId) :
    Except MeshError PeerAssignment × MeshCoordinator :=
  match mesh.peers.lookup id with
  | none => (.error (.peerNotFound id), mesh)
  | some peer =>
      match mesh.findBestParent order with
      | .error error => (.error error, mesh)
      | .ok parent =>
          let depth := mesh.depthUnder parent 1
          let moved := mesh.peers.insert id { peer with parent := some parent, depth := depth }
          let unlinked :=
            match peer.parent with
            | some old => if old != parent then dropChild old id moved else moved
            | none => moved
          (.ok ⟨id, peer.role, some parent, depth⟩, { mesh with peers := pushChild parent id unlinked })

end MeshCoordinator

inductive MeshOp where
  | addPeer (id : PeerId) (capacity : Option Nat) (order : List PeerId)
  | removePeer (id : PeerId)
  | reassignPeer (id : PeerId) (order : List PeerId)

def MeshCoordinator.apply (mesh : MeshCoordinator) : MeshOp → MeshCoordinator
  | .addPeer id capacity order => (mesh.addPeer id capacity order).2
  | .removePeer id => (mesh.removePeer id).2
  | .reassignPeer id order => (mesh.reassignPeer id order).2

end Lvqr.Mesh
