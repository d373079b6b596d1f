import Lvqr.Mesh.Outcome

set_option autoImplicit false

namespace Lvqr.Mesh

namespace MeshCoordinator

def depthOf (mesh : MeshCoordinator) (id : PeerId) : Option Nat := (mesh.positionOf id).map Position.depth

structure DepthConsistent (mesh : MeshCoordinator) : Prop where
  under : ∀ id place parent depth, mesh.positionOf id = some place → place.parent = some parent →
    mesh.depthOf parent = some depth → place.depth = depth + 1
  roots : ∀ id place, mesh.positionOf id = some place → place.role = .root → place.depth = 0
  bounded : ∀ id place, mesh.positionOf id = some place → place.depth ≤ mesh.config.maxDepth

-- Everyone else who points at the peer stands one level below `depth`.
def LevelBelow (mesh : MeshCoordinator) (id : PeerId) (depth : Nat) : Prop :=
  ∀ child, child ≠ id → mesh.parentOf child = some id → mesh.depthOf child = some (depth + 1)

-- `add_peer` and `reassign_peer` write the depth of the one peer they place;
-- `remove_peer` writes no depth.
def KeepsDepth (mesh : MeshCoordinator) (op : MeshOp) : Prop :=
  match mesh.outcome op with
  | .ignored => True
  | .placed id none => mesh.LevelBelow id 0
  | .placed id (some parent) => parent ≠ id ∧ mesh.LevelBelow id (mesh.depthUnder parent 1)
  | .removed _ _ => True
  | .moved id parent => parent ≠ id ∧ (mesh.positionOf id).map Position.role ≠ some .root ∧
      mesh.LevelBelow id (mesh.depthUnder parent 1)

theorem depth_of_stored (mesh : MeshCoordinator) (id : PeerId) (place : Position)
    (stored : mesh.positionOf id = some place) : mesh.depthOf id = some place.depth := by
  rw [depthOf, stored, Option.map_some]

-- One peer gets a new place and everyone else keeps theirs.
theorem repositioned_keeps_iff (mesh after : MeshCoordinator) (id : PeerId) (place : Position)
    (config : after.config = mesh.config)
    (positions : ∀ other, after.positionOf other = if other = id then some place else mesh.positionOf other)
    (shallow : place.depth ≤ mesh.config.maxDepth) (consistent : mesh.DepthConsistent) :
    after.DepthConsistent ↔
      (∀ parent depth, place.parent = some parent → after.depthOf parent = some depth → place.depth = depth + 1) ∧
      (place.role = .root → place.depth = 0) ∧ mesh.LevelBelow id place.depth := by
  have here : after.positionOf id = some place := (positions id).trans (if_pos rfl)
  have kept : ∀ other, other ≠ id → after.positionOf other = mesh.positionOf other :=
    fun other differs => (positions other).trans (if_neg differs)
  constructor
  · intro stays
    refine ⟨fun parent depth => stays.under id place parent depth here, stays.roots id place here, ?_⟩
    intro child differs points
    rw [mesh.parent_of_position] at points
    obtain ⟨below, stored, isParent⟩ := Option.bind_eq_some_iff.mp points
    have level := stays.under child below id place.depth ((kept child differs).trans stored) isParent
      (after.depth_of_stored id place here)
    rw [mesh.depth_of_stored child below stored, level]
  · rintro ⟨under, root, below⟩
    refine ⟨?_, ?_, ?_⟩
    · intro other position parent depth stored isParent parentDepth
      by_cases self : other = id
      · obtain rfl : place = position := Option.some.inj (here.symm.trans (self ▸ stored))
        exact under parent depth isParent parentDepth
      · have was : mesh.positionOf other = some position := (kept other self).symm.trans stored
        by_cases parentSelf : parent = id
        · subst parentSelf
          have points : mesh.parentOf other = some parent := by
            rw [mesh.parent_of_position, was, Option.bind_some, isParent]
          have isDepth : place.depth = depth :=
            Option.some.inj ((after.depth_of_stored parent place here).symm.trans parentDepth)
          have level := (mesh.depth_of_stored other position was).symm.trans (below other self points)
          exact isDepth ▸ Option.some.inj level
        · have parentWas : mesh.depthOf parent = some depth := by
            rw [depthOf, ← kept parent parentSelf]
            exact parentDepth
          exact consistent.under other position parent depth was isParent parentWas
    · intro other position stored isRoot
      by_cases self : other = id
      · obtain rfl : place = position := Option.some.inj (here.symm.trans (self ▸ stored))
        exact root isRoot
      · exact consistent.roots other position ((kept other self).symm.trans stored) isRoot
    · intro other position stored
      rw [config]
      by_cases self : other = id
      · obtain rfl : place = position := Option.some.inj (here.symm.trans (self ▸ stored))
        exact shallow
      · exact consistent.bounded other position ((kept other self).symm.trans stored)

-- A place under a present parent is right unless the parent is the peer itself.
theorem under_iff (mesh after : MeshCoordinator) (id parent : PeerId) (place high : Position)
    (positions : ∀ other, after.positionOf other = if other = id then some place else mesh.positionOf other)
    (isParent : place.parent = some parent) (known : mesh.positionOf parent = some high)
    (isDepth : place.depth = high.depth + 1) :
    (∀ above depth, place.parent = some above → after.depthOf above = some depth → place.depth = depth + 1) ↔
      parent ≠ id := by
  constructor
  · rintro under rfl
    have own := under parent place.depth isParent (after.depth_of_stored parent place ((positions parent).trans (if_pos rfl)))
    omega
  · intro differs above depth isAbove aboveDepth
    obtain rfl : parent = above := Option.some.inj (isParent.symm.trans isAbove)
    have stored : after.positionOf parent = some high := ((positions parent).trans (if_neg differs)).trans known
    have same : high.depth = depth := Option.some.inj ((after.depth_of_stored parent high stored).symm.trans aboveDepth)
    exact same ▸ isDepth

theorem removed_keeps_depth (mesh : MeshCoordinator) (op : MeshOp) (id : PeerId) (orphans : List PeerId)
    (isRemoved : mesh.outcome op = .removed id orphans) (consistent : mesh.DepthConsistent) :
    (mesh.apply op).DepthConsistent := by
  have source : ∀ other place, (mesh.apply op).positionOf other = some place →
      ∃ before, mesh.positionOf other = some before ∧ place.role = before.role ∧ place.depth = before.depth ∧
        (∀ parent, place.parent = some parent → before.parent = some parent) := by
    intro other place stored
    rw [mesh.apply_position op other, isRemoved] at stored
    dsimp only at stored
    by_cases self : other = id
    · simp [self] at stored
    · rw [if_neg self] at stored
      obtain ⟨before, was, rfl⟩ := Option.map_eq_some_iff.mp stored
      refine ⟨before, was, rfl, rfl, fun parent isParent => ?_⟩
      by_cases orphaned : other ∈ orphans
      · simp [orphaned] at isParent
      · simpa [orphaned] using isParent
  refine ⟨?_, ?_, ?_⟩
  · intro other place parent depth stored isParent parentDepth
    obtain ⟨before, was, _, level, parents⟩ := source other place stored
    obtain ⟨high, highStored, rfl⟩ := Option.map_eq_some_iff.mp parentDepth
    obtain ⟨highBefore, highWas, _, highLevel, _⟩ := source parent high highStored
    rw [level, highLevel]
    exact consistent.under other before parent highBefore.depth was (parents parent isParent)
      (mesh.depth_of_stored parent highBefore highWas)
  · intro other place stored isRoot
    obtain ⟨before, was, role, level, _⟩ := source other place stored
    exact level.trans (consistent.roots other before was (role.symm.trans isRoot))
  · intro other place stored
    obtain ⟨before, was, _, level, _⟩ := source other place stored
    rw [mesh.apply_config op, level]
    exact consistent.bounded other before was

theorem step_depth_iff (mesh : MeshCoordinator) (op : MeshOp) (keyed : mesh.Keyed)
    (consistent : mesh.DepthConsistent) : (mesh.apply op).DepthConsistent ↔ mesh.KeepsDepth op := by
  have positions := mesh.apply_position op
  have config := mesh.apply_config op
  cases result : mesh.outcome op with
  | ignored =>
      rw [mesh.apply_ignored op result, KeepsDepth, result]
      exact ⟨fun _ => trivial, fun _ => consistent⟩
  | placed id parent =>
      simp only [result] at positions
      rw [KeepsDepth, result]
      cases parent with
      | none =>
          rw [mesh.repositioned_keeps_iff _ id _ config positions (Nat.zero_le _) consistent]
          simp [placedAt]
      | some parent =>
          obtain ⟨high, known, above⟩ := mesh.chosen_shallow op id parent keyed (.inl result)
          have level := mesh.depth_under_position parent high known 1
          have bound : (mesh.placedAt (some parent)).depth ≤ mesh.config.maxDepth := by
            rw [placedAt, level]
            exact above
          rw [mesh.repositioned_keeps_iff _ id _ config positions bound consistent,
            mesh.under_iff _ id parent _ high positions rfl known level]
          simp [placedAt]
  | removed id orphans =>
      rw [KeepsDepth, result]
      exact ⟨fun _ => trivial, fun _ => mesh.removed_keeps_depth op id orphans result consistent⟩
  | moved id parent =>
      simp only [result] at positions
      rw [KeepsDepth, result]
      obtain ⟨high, known, above⟩ := mesh.chosen_shallow op id parent keyed (.inr result)
      obtain ⟨before, stored⟩ := mesh.moved_present op id parent result
      have level := mesh.depth_under_position parent high known 1
      have moved : ∀ other, (mesh.apply op).positionOf other =
          if other = id then some ⟨before.role, some parent, mesh.depthUnder parent 1⟩ else mesh.positionOf other := by
        intro other
        rw [positions]
        by_cases self : other = id
        · subst self
          simp [stored]
        · cases mesh.positionOf other <;> simp [self]
      rw [mesh.repositioned_keeps_iff _ id _ config moved (level ▸ above) consistent,
        mesh.under_iff _ id parent _ high moved rfl known level]
      simp [stored, level]

theorem new_depth (config : MeshConfig) : (new config).DepthConsistent := by
  refine ⟨?_, ?_, ?_⟩ <;> simp [new, positionOf]

end MeshCoordinator

open MeshCoordinator

-- Depths are right all through exactly the runs that place nobody under itself,
-- move no root, and move or replace a peer only to the level its children expect.
theorem mesh_depth_consistent_iff (config : MeshConfig) (ops : List MeshOp) :
    (∀ seen, seen <+: ops → (Machine.run apply (new config) seen).DepthConsistent) ↔
      Machine.AllSteps KeepsDepth apply (new config) ops := by
  have start : (new config).Keyed := by simp [new, Keyed]
  exact Machine.invariant_iff_guarded_under apply_keyed step_depth_iff (new config) ops start (new_depth config)

def chainOfOnes : MeshConfig := ⟨1, 1, 6⟩

-- "near" leaves; "middle" moves up one level and its child does not.
def middleMovesUp : List MeshOp :=
  [.addPeer "root" none [], .addPeer "near" none ["root"], .addPeer "middle" none ["root", "near"],
    .addPeer "far" none ["root", "near", "middle"], .removePeer "near", .reassignPeer "middle" ["root", "middle", "far"]]

theorem child_of_moved_peer_keeps_depth :
    ¬ ∀ (config : MeshConfig) (ops : List MeshOp), (Machine.run apply (new config) ops).DepthConsistent := by
  intro always
  have far : (Machine.run apply (new chainOfOnes) middleMovesUp).positionOf "far" = some ⟨.relay, some "middle", 3⟩ := by
    decide
  have middle : (Machine.run apply (new chainOfOnes) middleMovesUp).depthOf "middle" = some 1 := by decide
  have level := (always chainOfOnes middleMovesUp).under "far" _ "middle" 1 far rfl middle
  cases level

end Lvqr.Mesh
