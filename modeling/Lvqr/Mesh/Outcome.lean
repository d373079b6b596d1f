import Lvqr.Mesh.Links

set_option autoImplicit false

-- What one operation can do to the tree, once for all results about runs.
namespace Lvqr.Mesh

inductive Outcome where
  | ignored
  | placed (id : PeerId) (parent : Option PeerId)
  | removed (id : PeerId) (orphans : List PeerId)
  | moved (id parent : PeerId)
deriving DecidableEq

structure Position where
  role : PeerRole
  parent : Option PeerId
  depth : Nat
deriving DecidableEq, Repr

def PeerInfo.position (info : PeerInfo) : Position := ⟨info.role, info.parent, info.depth⟩

namespace MeshCoordinator

def outcome (mesh : MeshCoordinator) : MeshOp → Outcome
  | .addPeer id _ order =>
      match mesh.placement order with
      | .ok parent => .placed id parent
      | .error _ => .ignored
  | .removePeer id =>
      match mesh.peers.lookup id with
      | some peer => .removed id peer.children
      | none => .ignored
  | .reassignPeer id order =>
      match mesh.peers.lookup id, mesh.findBestParent order with
      | some _, .ok parent => .moved id parent
      | _, _ => .ignored

def positionOf (mesh : MeshCoordinator) (id : PeerId) : Option Position :=
  (mesh.peers.lookup id).map PeerInfo.position

def placedAt (mesh : MeshCoordinator) : Option PeerId → Position
  | none => ⟨.root, none, 0⟩
  | some parent => ⟨.relay, some parent, mesh.depthUnder parent 1⟩

theorem outcome_add (mesh : MeshCoordinator) (id : PeerId) (capacity : Option Nat) (order : List PeerId) :
    mesh.outcome (.addPeer id capacity order) =
      match mesh.placement order with
      | .ok parent => .placed id parent
      | .error _ => .ignored := rfl

theorem outcome_remove (mesh : MeshCoordinator) (id : PeerId) :
    mesh.outcome (.removePeer id) =
      match mesh.peers.lookup id with
      | some peer => .removed id peer.children
      | none => .ignored := rfl

theorem outcome_reassign (mesh : MeshCoordinator) (id : PeerId) (order : List PeerId) :
    mesh.outcome (.reassignPeer id order) =
      match mesh.peers.lookup id, mesh.findBestParent order with
      | some _, .ok parent => .moved id parent
      | _, _ => .ignored := rfl

theorem outcome_placed (mesh : MeshCoordinator) (op : MeshOp) (id : PeerId) (parent : Option PeerId)
    (isPlaced : mesh.outcome op = .placed id parent) :
    ∃ capacity order, op = .addPeer id capacity order ∧ mesh.placement order = .ok parent := by
  cases op with
  | addPeer added capacity order =>
      rw [outcome_add] at isPlaced
      cases placed : mesh.placement order with
      | error error =>
          rw [placed] at isPlaced
          cases isPlaced
      | ok chosen =>
          rw [placed] at isPlaced
          cases isPlaced
          exact ⟨capacity, order, rfl, placed⟩
  | removePeer removed =>
      rw [outcome_remove] at isPlaced
      split at isPlaced <;> cases isPlaced
  | reassignPeer moved order =>
      rw [outcome_reassign] at isPlaced
      split at isPlaced <;> cases isPlaced

theorem outcome_removed (mesh : MeshCoordinator) (op : MeshOp) (id : PeerId) (orphans : List PeerId)
    (isRemoved : mesh.outcome op = .removed id orphans) :
    op = .removePeer id ∧ ∃ peer, mesh.peers.lookup id = some peer ∧ peer.children = orphans := by
  cases op with
  | addPeer added capacity order =>
      rw [outcome_add] at isRemoved
      split at isRemoved <;> cases isRemoved
  | removePeer removed =>
      rw [outcome_remove] at isRemoved
      cases found : mesh.peers.lookup removed with
      | none =>
          rw [found] at isRemoved
          cases isRemoved
      | some peer =>
          rw [found] at isRemoved
          cases isRemoved
          exact ⟨rfl, peer, found, rfl⟩
  | reassignPeer moved order =>
      rw [outcome_reassign] at isRemoved
      split at isRemoved <;> cases isRemoved

theorem outcome_moved (mesh : MeshCoordinator) (op : MeshOp) (id parent : PeerId)
    (isMoved : mesh.outcome op = .moved id parent) :
    ∃ order peer, op = .reassignPeer id order ∧ mesh.peers.lookup id = some peer ∧
      mesh.findBestParent order = .ok parent := by
  cases op with
  | addPeer added capacity order =>
      rw [outcome_add] at isMoved
      split at isMoved <;> cases isMoved
  | removePeer removed =>
      rw [outcome_remove] at isMoved
      split at isMoved <;> cases isMoved
  | reassignPeer moved order =>
      rw [outcome_reassign] at isMoved
      cases found : mesh.peers.lookup moved with
      | none =>
          rw [found] at isMoved
          cases isMoved
      | some peer =>
          cases best : mesh.findBestParent order with
          | error error =>
              rw [found, best] at isMoved
              cases isMoved
          | ok chosen =>
              rw [found, best] at isMoved
              cases isMoved
              exact ⟨order, peer, rfl, found, best⟩

theorem apply_ignored (mesh : MeshCoordinator) (op : MeshOp) (ignored : mesh.outcome op = .ignored) :
    mesh.apply op = mesh := by
  cases op with
  | addPeer id capacity order =>
      cases placed : mesh.placement order with
      | error error => exact mesh.add_rejected id capacity order error placed
      | ok parent =>
          rw [outcome_add, placed] at ignored
          cases ignored
  | removePeer id =>
      cases found : mesh.peers.lookup id with
      | none => simp only [apply, removePeer, found]
      | some peer =>
          rw [outcome_remove, found] at ignored
          cases ignored
  | reassignPeer id order =>
      cases found : mesh.peers.lookup id with
      | none => simp only [apply, reassignPeer, found]
      | some peer =>
          cases best : mesh.findBestParent order with
          | error error => simp only [apply, reassignPeer, found, best]
          | ok parent =>
              rw [outcome_reassign, found, best] at ignored
              cases ignored

theorem add_result (mesh : MeshCoordinator) (id : PeerId) (capacity : Option Nat) (order : List PeerId) :
    (∃ parent assignment, mesh.placement order = .ok parent ∧ (mesh.addPeer id capacity order).1 = .ok assignment) ∨
      ∃ error, mesh.placement order = .error error ∧ (mesh.addPeer id capacity order).1 = .error error := by
  rw [placement, addPeer]
  by_cases slot : mesh.rootCount < mesh.config.rootPeerCount
  · exact .inl ⟨none, ⟨id, .root, none, 0⟩, by simp [slot]⟩
  · rw [if_neg slot, if_neg slot]
    cases found : mesh.findBestParent order with
    | error error => exact .inr ⟨error, rfl, rfl⟩
    | ok best =>
        by_cases deep : mesh.config.maxDepth < mesh.depthUnder best 1
        · exact .inr ⟨.treeDepthExceeded mesh.config.maxDepth, by simp [deep]⟩
        · exact .inl ⟨some best, ⟨id, .relay, some best, mesh.depthUnder best 1⟩, by simp [deep]⟩

theorem parent_of_position (mesh : MeshCoordinator) (id : PeerId) :
    mesh.parentOf id = (mesh.positionOf id).bind Position.parent := by
  rw [parentOf, positionOf, Option.bind_map]
  rfl

theorem placed_position (mesh : MeshCoordinator) (id : PeerId) (capacity : Option Nat) (order : List PeerId)
    (parent : Option PeerId) (placed : mesh.placement order = .ok parent) (other : PeerId) :
    (mesh.addPeer id capacity order).2.positionOf other =
      if other = id then some (mesh.placedAt parent) else mesh.positionOf other := by
  rw [placement] at placed
  rw [addPeer, positionOf]
  by_cases slot : mesh.rootCount < mesh.config.rootPeerCount
  · rw [if_pos slot] at placed ⊢
    obtain rfl : none = parent := Except.ok.inj placed
    rw [Table.lookup_insert_eq]
    by_cases self : other = id
    · rw [if_pos self, if_pos self]
      rfl
    · rw [if_neg self, if_neg self, positionOf]
  · rw [if_neg slot] at placed ⊢
    cases found : mesh.findBestParent order with
    | error error => simp [found] at placed
    | ok best =>
        simp only [found] at placed ⊢
        by_cases deep : mesh.config.maxDepth < mesh.depthUnder best 1
        · simp [deep] at placed
        · rw [if_neg deep] at placed ⊢
          obtain rfl : some best = parent := Except.ok.inj placed
          rw [lookup_push_child, Table.lookup_insert_eq, Table.lookup_insert_eq, positionOf]
          by_cases here : other = best
          · subst here
            by_cases self : other = id
            · simp [self, PeerInfo.new, PeerInfo.position, placedAt]
            · rw [if_pos rfl, if_neg self, if_neg self, Option.map_map]
              rfl
          · by_cases self : other = id
            · subst self
              simp [here, PeerInfo.new, PeerInfo.position, placedAt]
            · simp [here, self]

-- Where everyone stands after the operation, from where everyone stood.
theorem apply_position (mesh : MeshCoordinator) (op : MeshOp) (other : PeerId) :
    (mesh.apply op).positionOf other =
      match mesh.outcome op with
      | .ignored => mesh.positionOf other
      | .placed id parent => if other = id then some (mesh.placedAt parent) else mesh.positionOf other
      | .removed id orphans =>
          if other = id then none
          else (mesh.positionOf other).map fun place =>
            { place with parent := if other ∈ orphans then none else place.parent }
      | .moved id parent =>
          (mesh.positionOf other).map fun place =>
            { place with
              parent := if other = id then some parent else place.parent
              depth := if other = id then mesh.depthUnder parent 1 else place.depth } := by
  cases result : mesh.outcome op with
  | ignored => rw [mesh.apply_ignored op result]
  | placed id parent =>
      obtain ⟨capacity, order, rfl, placed⟩ := mesh.outcome_placed op id parent result
      exact mesh.placed_position id capacity order parent placed other
  | removed id orphans =>
      obtain ⟨rfl, peer, found, rfl⟩ := mesh.outcome_removed op id orphans result
      rw [apply, positionOf, positionOf, mesh.remove_lookup id peer found]
      by_cases self : other = id
      · simp [self]
      · simp [self, Option.map_map, Function.comp_def, PeerInfo.position]
  | moved id parent =>
      obtain ⟨order, peer, rfl, known, best⟩ := mesh.outcome_moved op id parent result
      rw [apply, positionOf, positionOf, mesh.reassign_lookup id parent peer order known best]
      simp [Option.map_map, Function.comp_def, PeerInfo.position]

theorem apply_parent_of (mesh : MeshCoordinator) (op : MeshOp) (other : PeerId) :
    (mesh.apply op).parentOf other =
      match mesh.outcome op with
      | .ignored => mesh.parentOf other
      | .placed id parent => if other = id then parent else mesh.parentOf other
      | .removed id orphans => if other = id ∨ other ∈ orphans then none else mesh.parentOf other
      | .moved id parent => if other = id then some parent else mesh.parentOf other := by
  cases result : mesh.outcome op with
  | ignored => rw [mesh.apply_ignored op result]
  | placed id parent =>
      obtain ⟨capacity, order, rfl, placed⟩ := mesh.outcome_placed op id parent result
      exact mesh.add_parent_of id capacity order parent placed other
  | removed id orphans =>
      have place := mesh.apply_position op other
      rw [parent_of_position, place, result, parent_of_position]
      by_cases self : other = id
      · simp [self]
      · cases mesh.positionOf other with
        | none => simp
        | some position => by_cases orphaned : other ∈ orphans <;> simp [self, orphaned]
  | moved id parent =>
      obtain ⟨order, peer, rfl, known, best⟩ := mesh.outcome_moved op id parent result
      exact mesh.reassign_parent_of id parent peer order known best other

theorem present_iff (mesh : MeshCoordinator) (id : PeerId) :
    id ∈ mesh.peers ↔ ∃ place, mesh.positionOf id = some place := by
  rw [← AList.lookup_isSome, positionOf]
  cases mesh.peers.lookup id <;> simp

theorem points_present (mesh : MeshCoordinator) (id parent : PeerId) (points : mesh.parentOf id = some parent) :
    id ∈ mesh.peers := by
  rw [mesh.parent_of_position] at points
  obtain ⟨place, stored, _⟩ := Option.bind_eq_some_iff.mp points
  exact (mesh.present_iff id).mpr ⟨place, stored⟩

theorem apply_present (mesh : MeshCoordinator) (op : MeshOp) (other : PeerId) :
    other ∈ (mesh.apply op).peers ↔
      match mesh.outcome op with
      | .ignored => other ∈ mesh.peers
      | .placed id _ => other = id ∨ other ∈ mesh.peers
      | .removed id _ => other ≠ id ∧ other ∈ mesh.peers
      | .moved _ _ => other ∈ mesh.peers := by
  rw [present_iff, mesh.apply_position op other]
  cases mesh.outcome op with
  | ignored => exact (mesh.present_iff other).symm
  | placed id parent => by_cases self : other = id <;> simp [self, present_iff]
  | removed id orphans => by_cases self : other = id <;> simp [self, present_iff]
  | moved id parent => simp [present_iff]

def Keyed (mesh : MeshCoordinator) : Prop := ∀ id info, mesh.peers.lookup id = some info → info.id = id

theorem apply_keyed (mesh : MeshCoordinator) (op : MeshOp) (keyed : mesh.Keyed) : (mesh.apply op).Keyed := by
  intro other after stored
  cases result : mesh.outcome op with
  | ignored =>
      rw [mesh.apply_ignored op result] at stored
      exact keyed other after stored
  | placed id parent =>
      obtain ⟨capacity, order, rfl, placed⟩ := mesh.outcome_placed op id parent result
      obtain ⟨role, depth, lookup⟩ := mesh.add_lookup id capacity order parent placed
      rw [apply, lookup] at stored
      obtain ⟨before, wasStored, rfl⟩ := Option.map_eq_some_iff.mp stored
      by_cases self : other = id
      · obtain rfl := Option.some.inj ((if_pos self).symm.trans wasStored)
        exact self.symm
      · rw [if_neg self] at wasStored
        exact keyed other before wasStored
  | removed id orphans =>
      obtain ⟨rfl, peer, found, rfl⟩ := mesh.outcome_removed op id orphans result
      rw [apply, mesh.remove_lookup id peer found] at stored
      by_cases self : other = id
      · simp [self] at stored
      · rw [if_neg self] at stored
        obtain ⟨before, wasStored, rfl⟩ := Option.map_eq_some_iff.mp stored
        exact keyed other before wasStored
  | moved id parent =>
      obtain ⟨order, peer, rfl, known, best⟩ := mesh.outcome_moved op id parent result
      rw [apply, mesh.reassign_lookup id parent peer order known best] at stored
      obtain ⟨before, wasStored, rfl⟩ := Option.map_eq_some_iff.mp stored
      exact keyed other before wasStored

theorem apply_config (mesh : MeshCoordinator) (op : MeshOp) : (mesh.apply op).config = mesh.config := by
  cases result : mesh.outcome op with
  | ignored => rw [mesh.apply_ignored op result]
  | placed id parent =>
      obtain ⟨capacity, order, rfl, _⟩ := mesh.outcome_placed op id parent result
      exact mesh.add_config id capacity order
  | removed id orphans =>
      obtain ⟨rfl, peer, found, rfl⟩ := mesh.outcome_removed op id orphans result
      simp only [apply, removePeer, found]
  | moved id parent =>
      obtain ⟨order, peer, rfl, known, best⟩ := mesh.outcome_moved op id parent result
      simp only [apply, reassignPeer, known, best]

-- A chosen parent is a peer of the mesh with a level left under it.
theorem best_parent_shallow (mesh : MeshCoordinator) (order : List PeerId) (parent : PeerId) (keyed : mesh.Keyed)
    (found : mesh.findBestParent order = .ok parent) :
    ∃ place, mesh.positionOf parent = some place ∧ place.depth < mesh.config.maxDepth := by
  have shallow := consider_eligible mesh.config (order.filterMap mesh.peers.lookup) none
    (fun id => ∃ place, mesh.positionOf id = some place ∧ place.depth < mesh.config.maxDepth) (by simp) (by
      intro peer member _ above
      obtain ⟨id, _, stored⟩ := List.mem_filterMap.mp member
      rw [keyed id peer stored]
      exact ⟨peer.position, by rw [positionOf, stored, Option.map_some], above⟩)
  exact best_parent_chosen mesh order parent
    (fun id => ∃ place, mesh.positionOf id = some place ∧ place.depth < mesh.config.maxDepth) shallow found

theorem placement_found (mesh : MeshCoordinator) (order : List PeerId) (parent : PeerId)
    (placed : mesh.placement order = .ok (some parent)) : mesh.findBestParent order = .ok parent := by
  rw [placement] at placed
  split at placed
  · cases placed
  · split at placed
    · cases placed
    · rename_i best found
      split at placed
      · cases placed
      · obtain rfl : best = parent := Option.some.inj (Except.ok.inj placed)
        exact found

theorem chosen_shallow (mesh : MeshCoordinator) (op : MeshOp) (id parent : PeerId) (keyed : mesh.Keyed)
    (chosen : mesh.outcome op = .placed id (some parent) ∨ mesh.outcome op = .moved id parent) :
    ∃ place, mesh.positionOf parent = some place ∧ place.depth < mesh.config.maxDepth := by
  rcases chosen with isPlaced | isMoved
  · obtain ⟨_, order, _, placed⟩ := mesh.outcome_placed op id (some parent) isPlaced
    exact mesh.best_parent_shallow order parent keyed (mesh.placement_found order parent placed)
  · obtain ⟨order, _, _, _, found⟩ := mesh.outcome_moved op id parent isMoved
    exact mesh.best_parent_shallow order parent keyed found

theorem moved_present (mesh : MeshCoordinator) (op : MeshOp) (id parent : PeerId)
    (isMoved : mesh.outcome op = .moved id parent) : ∃ place, mesh.positionOf id = some place := by
  obtain ⟨_, peer, _, known, _⟩ := mesh.outcome_moved op id parent isMoved
  exact ⟨peer.position, by rw [positionOf, known, Option.map_some]⟩

theorem depth_under_position (mesh : MeshCoordinator) (parent : PeerId) (place : Position)
    (known : mesh.positionOf parent = some place) (unknown : Nat) : mesh.depthUnder parent unknown = place.depth + 1 := by
  rw [positionOf] at known
  obtain ⟨info, stored, rfl⟩ := Option.map_eq_some_iff.mp known
  rw [depthUnder, stored]
  rfl

end MeshCoordinator

end Lvqr.Mesh
