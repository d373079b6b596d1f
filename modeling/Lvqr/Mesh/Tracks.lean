import Lvqr.Mesh.Outcome

set_option autoImplicit false

namespace Lvqr.Mesh

-- The coordinator with the track of every entry. `add_peer` writes the track of
-- the entry it inserts, and nothing in the coordinator reads it.
structure TrackedMesh where
  mesh : MeshCoordinator
  tracks : Table PeerId String

inductive TrackedOp where
  | addPeer (id : PeerId) (track : String) (capacity : Option Nat) (order : List PeerId)
  | removePeer (id : PeerId)
  | reassignPeer (id : PeerId) (order : List PeerId)

def TrackedOp.untracked : TrackedOp → MeshOp
  | .addPeer id _ capacity order => .addPeer id capacity order
  | .removePeer id => .removePeer id
  | .reassignPeer id order => .reassignPeer id order

namespace TrackedMesh

open MeshCoordinator

def new (config : MeshConfig) : TrackedMesh := ⟨.new config, ∅⟩

def addPeer (tracked : TrackedMesh) (id : PeerId) (track : String) (capacity : Option Nat) (order : List PeerId) :
    TrackedMesh :=
  match tracked.mesh.addPeer id capacity order with
  | (.ok _, mesh) => ⟨mesh, tracked.tracks.insert id track⟩
  | (.error _, mesh) => { tracked with mesh := mesh }

def removePeer (tracked : TrackedMesh) (id : PeerId) : TrackedMesh :=
  ⟨(tracked.mesh.removePeer id).2, tracked.tracks.erase id⟩

def reassignPeer (tracked : TrackedMesh) (id : PeerId) (order : List PeerId) : TrackedMesh :=
  { tracked with mesh := (tracked.mesh.reassignPeer id order).2 }

def apply (tracked : TrackedMesh) : TrackedOp → TrackedMesh
  | .addPeer id track capacity order => tracked.addPeer id track capacity order
  | .removePeer id => tracked.removePeer id
  | .reassignPeer id order => tracked.reassignPeer id order

def TracksIsolated (tracked : TrackedMesh) : Prop :=
  ∀ id parent, tracked.mesh.parentOf id = some parent →
    ∃ track, tracked.tracks.lookup id = some track ∧ tracked.tracks.lookup parent = some track

structure Recorded (tracked : TrackedMesh) : Prop where
  keyed : tracked.mesh.Keyed
  same : ∀ id, id ∈ tracked.tracks ↔ id ∈ tracked.mesh.peers

theorem apply_mesh (tracked : TrackedMesh) (op : TrackedOp) :
    (tracked.apply op).mesh = tracked.mesh.apply op.untracked := by
  cases op with
  | addPeer id track capacity order =>
      rw [apply, addPeer]
      split <;> rename_i result <;> exact (congrArg Prod.snd result).symm
  | removePeer id => rfl
  | reassignPeer id order => rfl

theorem apply_tracks (tracked : TrackedMesh) (op : TrackedOp) (other : PeerId) :
    (tracked.apply op).tracks.lookup other =
      match op with
      | .addPeer id track _ order =>
          match tracked.mesh.placement order with
          | .ok _ => if other = id then some track else tracked.tracks.lookup other
          | .error _ => tracked.tracks.lookup other
      | .removePeer id => if other = id then none else tracked.tracks.lookup other
      | .reassignPeer _ _ => tracked.tracks.lookup other := by
  cases op with
  | addPeer id track capacity order =>
      rw [apply, addPeer]
      rcases tracked.mesh.add_result id capacity order with ⟨parent, assignment, placed, isOk⟩ | ⟨error, refused, isError⟩
      · have result : tracked.mesh.addPeer id capacity order = (.ok assignment, (tracked.mesh.addPeer id capacity order).2) :=
          Prod.ext isOk rfl
        rw [result]
        simp only [placed, Table.lookup_insert_eq]
      · have result : tracked.mesh.addPeer id capacity order = (.error error, (tracked.mesh.addPeer id capacity order).2) :=
          Prod.ext isError rfl
        rw [result]
        simp only [refused]
  | removePeer id => exact Table.lookup_erase_eq tracked.tracks id other
  | reassignPeer id order => rfl

theorem removed_keeps_iff (tracked : TrackedMesh) (id : PeerId) (info : PeerInfo)
    (found : tracked.mesh.peers.lookup id = some info) (isolated : tracked.TracksIsolated) :
    (tracked.apply (.removePeer id)).TracksIsolated ↔
      ∀ child, child ≠ id → tracked.mesh.parentOf child = some id → child ∈ info.children := by
  have parents : ∀ other, (tracked.apply (.removePeer id)).mesh.parentOf other =
      if other = id ∨ other ∈ info.children then none else tracked.mesh.parentOf other := by
    intro other
    rw [apply_mesh, TrackedOp.untracked, tracked.mesh.apply_parent_of (.removePeer id) other]
    simp only [outcome, found]
  have tracks : ∀ other, (tracked.apply (.removePeer id)).tracks.lookup other =
      if other = id then none else tracked.tracks.lookup other := fun other => tracked.apply_tracks (.removePeer id) other
  constructor
  · intro after child differs points
    by_contra unlisted
    have kept := (parents child).trans (if_neg (by simp [differs, unlisted]))
    obtain ⟨shared, _, above⟩ := after child id (kept.trans points)
    rw [tracks, if_pos rfl] at above
    cases above
  · intro listed other parent points
    rw [parents] at points
    by_cases cut : other = id ∨ other ∈ info.children
    · simp [cut] at points
    · rw [if_neg cut] at points
      obtain ⟨self, unlisted⟩ := not_or.mp cut
      have differs : parent ≠ id := fun same => unlisted (listed other self (same ▸ points))
      obtain ⟨shared, below, above⟩ := isolated other parent points
      exact ⟨shared, ((tracks other).trans (if_neg self)).trans below, ((tracks parent).trans (if_neg differs)).trans above⟩

theorem new_recorded (config : MeshConfig) : (new config).Recorded := by
  refine ⟨?_, ?_⟩ <;> simp [new, MeshCoordinator.new, Keyed]

end TrackedMesh

open TrackedMesh

end Lvqr.Mesh
