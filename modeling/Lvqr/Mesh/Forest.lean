import Lvqr.Lib.Climb
import Lvqr.Mesh.Outcome

set_option autoImplicit false

namespace Lvqr.Mesh

open Climb

-- The coordinator with the orphans that `remove_peer` returned and that nobody
-- has found a new parent for yet.
structure Recovery where
  mesh : MeshCoordinator
  waiting : List PeerId

namespace Recovery

def start (config : MeshConfig) : Recovery := ⟨.new config, []⟩

def without (id : PeerId) (waiting : List PeerId) : List PeerId := waiting.filter (· != id)

def apply (recovery : Recovery) (op : MeshOp) : Recovery where
  mesh := recovery.mesh.apply op
  waiting :=
    match recovery.mesh.outcome op with
    | .ignored => recovery.waiting
    | .placed id _ => without id recovery.waiting
    | .removed id orphans =>
        without id recovery.waiting ++ orphans.filter (fun orphan => decide (orphan ∈ (recovery.mesh.apply op).peers))
    | .moved id _ => without id recovery.waiting

def IsRoot (mesh : MeshCoordinator) (id : PeerId) : Prop := (mesh.positionOf id).map Position.role = some .root

def Top (recovery : Recovery) (id : PeerId) : Prop := IsRoot recovery.mesh id ∨ id ∈ recovery.waiting

-- Nobody is its own ancestor, and every climb can end at a root or at an orphan
-- that still waits.
structure RootedForest (recovery : Recovery) : Prop where
  acyclic : Acyclic recovery.mesh.parentOf
  grounded : ∀ id ∈ recovery.mesh.peers, Grounded recovery.mesh.parentOf recovery.Top id

-- The parent found for a peer does not sit under that peer, and a removed peer
-- listed everyone who points at it, roots apart.
def KeepsForest (recovery : Recovery) (op : MeshOp) : Prop :=
  match recovery.mesh.outcome op with
  | .ignored => True
  | .placed _ none => True
  | .placed id (some parent) => ¬ Climbs recovery.mesh.parentOf parent id
  | .removed id orphans => ∀ child, child ≠ id → recovery.mesh.parentOf child = some id →
      child ∈ orphans ∨ IsRoot recovery.mesh child
  | .moved id parent => ¬ Climbs recovery.mesh.parentOf parent id

structure Bookkeeping (recovery : Recovery) : Prop where
  keyed : recovery.mesh.Keyed
  waits : ∀ id ∈ recovery.waiting, ∃ place, recovery.mesh.positionOf id = some place ∧ place.parent = none

theorem mem_without (id other : PeerId) (waiting : List PeerId) :
    other ∈ without id waiting ↔ other ∈ waiting ∧ other ≠ id := by
  simp [without]

theorem top_present (recovery : Recovery) (books : recovery.Bookkeeping) (id : PeerId) (top : recovery.Top id) :
    id ∈ recovery.mesh.peers := by
  rcases top with root | waiting
  · obtain ⟨place, stored, _⟩ := Option.map_eq_some_iff.mp root
    exact (recovery.mesh.present_iff id).mpr ⟨place, stored⟩
  · obtain ⟨place, stored, _⟩ := books.waits id waiting
    exact (recovery.mesh.present_iff id).mpr ⟨place, stored⟩

theorem grounded_present (recovery : Recovery) (books : recovery.Bookkeeping) (id : PeerId)
    (grounded : Grounded recovery.mesh.parentOf recovery.Top id) : id ∈ recovery.mesh.peers := by
  obtain ⟨top, climb, isTop⟩ := grounded
  rcases Relation.ReflTransGen.cases_head climb with rfl | ⟨next, points, _⟩
  · exact recovery.top_present books id isTop
  · exact recovery.mesh.points_present id next points

theorem apply_bookkeeping (recovery : Recovery) (op : MeshOp) (books : recovery.Bookkeeping) :
    (recovery.apply op).Bookkeeping := by
  refine ⟨recovery.mesh.apply_keyed op books.keyed, ?_⟩
  intro id waits
  have place := recovery.mesh.apply_position op id
  rw [apply] at waits ⊢
  cases result : recovery.mesh.outcome op with
  | ignored =>
      rw [result] at waits place
      rw [place]
      exact books.waits id waits
  | placed added parent =>
      rw [result] at waits place
      obtain ⟨waited, differs⟩ := (mem_without added id recovery.waiting).mp waits
      dsimp only at place
      rw [place, if_neg differs]
      exact books.waits id waited
  | removed removed orphans =>
      rw [result] at waits place
      dsimp only at place
      rcases List.mem_append.mp waits with waited | orphaned
      · obtain ⟨waited, differs⟩ := (mem_without removed id recovery.waiting).mp waited
        obtain ⟨before, stored, alone⟩ := books.waits id waited
        rw [place, if_neg differs, stored, Option.map_some]
        exact ⟨_, rfl, by simp [alone]⟩
      · obtain ⟨orphaned, present⟩ := List.mem_filter.mp orphaned
        obtain ⟨after, stored⟩ := (MeshCoordinator.present_iff _ id).mp (of_decide_eq_true present)
        refine ⟨after, stored, ?_⟩
        rw [place] at stored
        by_cases self : id = removed
        · simp [self] at stored
        · rw [if_neg self] at stored
          obtain ⟨before, _, rfl⟩ := Option.map_eq_some_iff.mp stored
          exact if_pos orphaned
  | moved moved parent =>
      rw [result] at waits place
      obtain ⟨waited, differs⟩ := (mem_without moved id recovery.waiting).mp waits
      obtain ⟨before, stored, alone⟩ := books.waits id waited
      dsimp only at place
      rw [place, stored, Option.map_some]
      exact ⟨_, rfl, by simp [differs, alone]⟩

theorem apply_is_root (mesh : MeshCoordinator) (op : MeshOp) (other : PeerId) :
    IsRoot (mesh.apply op) other ↔
      match mesh.outcome op with
      | .ignored => IsRoot mesh other
      | .placed id parent => if other = id then parent = none else IsRoot mesh other
      | .removed id _ => other ≠ id ∧ IsRoot mesh other
      | .moved _ _ => IsRoot mesh other := by
  rw [IsRoot, mesh.apply_position op other]
  cases mesh.outcome op with
  | ignored => exact Iff.rfl
  | placed id parent =>
      by_cases self : other = id
      · cases parent <;> simp [self, MeshCoordinator.placedAt]
      · simp [self, IsRoot]
  | removed id orphans =>
      by_cases self : other = id
      · simp [self]
      · simp [self, IsRoot, Option.map_map, Function.comp_def]
  | moved id parent => simp [IsRoot, Option.map_map, Function.comp_def]

theorem placed_root_keeps (recovery : Recovery) (op : MeshOp) (id : PeerId)
    (isPlaced : recovery.mesh.outcome op = .placed id none) (forest : recovery.RootedForest) :
    (recovery.apply op).RootedForest := by
  have parents := recovery.mesh.apply_parent_of op
  have roots := apply_is_root recovery.mesh op
  simp only [isPlaced] at parents roots
  have agree : ∀ other, ¬ other = id → (recovery.mesh.apply op).parentOf other = recovery.mesh.parentOf other :=
    fun other differs => (parents other).trans (if_neg differs)
  have isTop : (recovery.apply op).Top id := .inl ((roots id).mpr (by simp))
  have grounded : Grounded (recovery.mesh.apply op).parentOf (recovery.apply op).Top id := ⟨id, .here _ id, isTop⟩
  refine ⟨?_, ?_⟩
  · refine acyclic_of_fewer forest.acyclic fun other next points => ?_
    by_cases self : other = id
    · simp [self, apply, parents] at points
    · exact (agree other self).symm.trans points
  · intro other present
    by_cases self : other = id
    · exact self ▸ grounded
    · have was : other ∈ recovery.mesh.peers := by
        rw [apply, recovery.mesh.apply_present op other, isPlaced] at present
        exact present.resolve_left self
      refine grounded_of_changed (· = id) (fun _ => True) agree
        (fun _ _ _ _ _ => trivial) (fun node _ same _ => same ▸ grounded) ?_ trivial (forest.grounded other was)
      intro node _ differs top
      rcases top with root | waits
      · exact .inl ((roots node).mpr ((if_neg differs).mpr root))
      · refine .inr ?_
        rw [apply, isPlaced]
        exact (mem_without id node recovery.waiting).mpr ⟨waits, differs⟩

-- A peer that is pointed at a present one, whether it is new or moved.
theorem repointed_keeps_iff (recovery : Recovery) (op : MeshOp) (id parent : PeerId)
    (chosen : recovery.mesh.outcome op = .placed id (some parent) ∨ recovery.mesh.outcome op = .moved id parent)
    (books : recovery.Bookkeeping) (forest : recovery.RootedForest) :
    (recovery.apply op).RootedForest ↔ ¬ Climbs recovery.mesh.parentOf parent id := by
  obtain ⟨high, parentStored, _⟩ := recovery.mesh.chosen_shallow op id parent books.keyed chosen
  have parentPresent : parent ∈ recovery.mesh.peers := (recovery.mesh.present_iff parent).mpr ⟨high, parentStored⟩
  have parents : ∀ other, (recovery.mesh.apply op).parentOf other =
      if other = id then some parent else recovery.mesh.parentOf other := by
    intro other
    rw [recovery.mesh.apply_parent_of op other]
    rcases chosen with isPlaced | isMoved
    · rw [isPlaced]
    · rw [isMoved]
  have roots : ∀ other, other ≠ id → IsRoot recovery.mesh other → IsRoot (recovery.mesh.apply op) other := by
    intro other differs root
    rw [apply_is_root recovery.mesh op other]
    rcases chosen with isPlaced | isMoved
    · rw [isPlaced]
      exact (if_neg differs).mpr root
    · rw [isMoved]
      exact root
  have waiting : (recovery.apply op).waiting = without id recovery.waiting := by
    rw [apply]
    rcases chosen with isPlaced | isMoved
    · rw [isPlaced]
    · rw [isMoved]
  have agree : ∀ other, other ≠ id → (recovery.mesh.apply op).parentOf other = recovery.mesh.parentOf other :=
    fun other differs => (parents other).trans (if_neg differs)
  have points : (recovery.mesh.apply op).parentOf id = some parent := (parents id).trans (if_pos rfl)
  have exact' := acyclic_repoint_iff forest.acyclic agree points
  constructor
  · intro after
    exact exact'.mp after.acyclic
  · intro apart
    refine ⟨exact'.mpr apart, ?_⟩
    have keeps : ∀ node, node ≠ id → recovery.Top node → (recovery.apply op).Top node := by
      intro node differs top
      rcases top with root | waits
      · exact .inl (roots node differs root)
      · refine .inr ?_
        rw [waiting]
        exact (mem_without id node recovery.waiting).mpr ⟨waits, differs⟩
    have still : ∀ node ∈ recovery.mesh.peers,
        Grounded (recovery.mesh.apply op).parentOf (recovery.apply op).Top node := fun node present =>
      grounded_repoint agree points keeps apart (forest.grounded parent parentPresent) (forest.grounded node present)
    intro other present
    by_cases self : other = id
    · obtain ⟨top, climb, isTop⟩ := still parent parentPresent
      exact ⟨top, .step (self ▸ points) climb, isTop⟩
    · apply still
      rw [apply, recovery.mesh.apply_present op other] at present
      rcases chosen with isPlaced | isMoved
      · rw [isPlaced] at present
        exact present.resolve_left self
      · rw [isMoved] at present
        exact present

theorem removed_keeps_iff (recovery : Recovery) (op : MeshOp) (id : PeerId) (orphans : List PeerId)
    (isRemoved : recovery.mesh.outcome op = .removed id orphans) (books : recovery.Bookkeeping)
    (forest : recovery.RootedForest) :
    (recovery.apply op).RootedForest ↔ ∀ child, child ≠ id → recovery.mesh.parentOf child = some id →
      child ∈ orphans ∨ IsRoot recovery.mesh child := by
  have parents := recovery.mesh.apply_parent_of op
  have roots := apply_is_root recovery.mesh op
  have present := recovery.mesh.apply_present op
  simp only [isRemoved] at parents roots present
  have waiting : ∀ node, node ∈ (recovery.apply op).waiting ↔
      (node ∈ recovery.waiting ∧ node ≠ id) ∨ (node ∈ orphans ∧ node ∈ (recovery.mesh.apply op).peers) := by
    intro node
    rw [apply, isRemoved, List.mem_append, mem_without, List.mem_filter, decide_eq_true_eq]
  have gone : id ∉ (recovery.mesh.apply op).peers := fun still => ((present id).mp still).1 rfl
  have fewer : ∀ node next, (recovery.mesh.apply op).parentOf node = some next →
      recovery.mesh.parentOf node = some next := by
    intro node next points
    rw [parents] at points
    by_cases cut : node = id ∨ node ∈ orphans
    · simp [cut] at points
    · exact (if_neg cut).symm.trans points
  constructor
  · intro after child differs points
    by_cases listed : child ∈ orphans
    · exact .inl listed
    · have kept : (recovery.mesh.apply op).parentOf child = some id := by
        rw [parents, if_neg (by simp [differs, listed]), points]
      have was : child ∈ recovery.mesh.peers := recovery.mesh.points_present child id points
      obtain ⟨top, climb, isTop⟩ := after.grounded child ((present child).mpr ⟨differs, was⟩)
      have atChild : top = child := by
        rcases Relation.ReflTransGen.cases_head climb with same | ⟨next, first, rest⟩
        · exact same.symm
        · obtain rfl : id = next := Option.some.inj (kept.symm.trans first)
          rcases Relation.ReflTransGen.cases_head rest with same | ⟨beyond, second, _⟩
          · subst same
            exact absurd ((recovery.apply op).top_present (recovery.apply_bookkeeping op books) id isTop) gone
          · exact absurd (MeshCoordinator.points_present _ id beyond second) gone
      subst atChild
      rcases isTop with root | waits
      · exact .inr ((roots top).mp root).2
      · rcases (waiting top).mp waits with ⟨waited, _⟩ | ⟨orphaned, _⟩
        · obtain ⟨place, stored, alone⟩ := books.waits top waited
          rw [recovery.mesh.parent_of_position, stored, Option.bind_some, alone] at points
          cases points
        · exact .inl orphaned
  · intro listed
    refine ⟨acyclic_of_fewer forest.acyclic fewer, ?_⟩
    intro other isPresent
    obtain ⟨differs, was⟩ := (present other).mp isPresent
    refine grounded_of_changed (fun node => node = id ∨ node ∈ orphans ∨ recovery.mesh.parentOf node = some id)
      (fun node => node ≠ id) ?_ ?_ ?_ ?_ differs (forest.grounded other was)
    · intro node same
      refine (parents node).trans (if_neg ?_)
      exact fun cut => same (cut.elim .inl fun orphaned => .inr (.inl orphaned))
    · rintro node next _ same points rfl
      exact same (.inr (.inr points))
    · intro node live changed grounded
      have here := recovery.grounded_present books node grounded
      have orphanTop : node ∈ orphans → Grounded (recovery.mesh.apply op).parentOf (recovery.apply op).Top node :=
        fun orphaned => ⟨node, .here _ node, .inr ((waiting node).mpr (.inr ⟨orphaned, (present node).mpr ⟨live, here⟩⟩))⟩
      rcases changed with self | orphaned | points
      · exact absurd self live
      · exact orphanTop orphaned
      · rcases listed node live points with orphaned | root
        · exact orphanTop orphaned
        · exact ⟨node, .here _ node, .inl ((roots node).mpr ⟨live, root⟩)⟩
    · intro node live _ top
      rcases top with root | waits
      · exact .inl ((roots node).mpr ⟨live, root⟩)
      · exact .inr ((waiting node).mpr (.inl ⟨waits, live⟩))

theorem step_forest_iff (recovery : Recovery) (op : MeshOp) (books : recovery.Bookkeeping)
    (forest : recovery.RootedForest) : (recovery.apply op).RootedForest ↔ recovery.KeepsForest op := by
  cases result : recovery.mesh.outcome op with
  | ignored =>
      have unchanged : recovery.apply op = recovery := by
        rw [apply, recovery.mesh.apply_ignored op result, result]
      rw [unchanged, KeepsForest, result]
      exact ⟨fun _ => trivial, fun _ => forest⟩
  | placed id parent =>
      rw [KeepsForest, result]
      cases parent with
      | none => exact ⟨fun _ => trivial, fun _ => recovery.placed_root_keeps op id result forest⟩
      | some parent => exact recovery.repointed_keeps_iff op id parent (.inl result) books forest
  | removed id orphans =>
      rw [KeepsForest, result]
      exact recovery.removed_keeps_iff op id orphans result books forest
  | moved id parent =>
      rw [KeepsForest, result]
      exact recovery.repointed_keeps_iff op id parent (.inr result) books forest

theorem start_bookkeeping (config : MeshConfig) : (start config).Bookkeeping := by
  refine ⟨?_, ?_⟩ <;> simp [start, MeshCoordinator.new, MeshCoordinator.Keyed]

theorem start_forest (config : MeshConfig) : (start config).RootedForest := by
  refine ⟨?_, ?_⟩
  · intro node cycle
    obtain ⟨next, points, _⟩ := Relation.TransGen.head'_iff.mp cycle
    simp [Above, start, MeshCoordinator.new, MeshCoordinator.parentOf] at points
  · intro id present
    simp [start, MeshCoordinator.new] at present

end Recovery

open Recovery

-- The mesh is a rooted forest, orphans that still wait counted as roots, all
-- through exactly the runs in which no peer is put under itself or under one of
-- its own descendants and a removed peer lists everyone who points at it.
theorem mesh_rooted_forest_iff (config : MeshConfig) (ops : List MeshOp) :
    (∀ seen, seen <+: ops → (Machine.run Recovery.apply (start config) seen).RootedForest) ↔
      Machine.AllSteps KeepsForest Recovery.apply (start config) ops :=
  Machine.invariant_iff_guarded_under apply_bookkeeping step_forest_iff (start config) ops (start_bookkeeping config)
    (start_forest config)

-- The root leaves, and the only peer left is found as its own best parent.
def rootLeaves : List MeshOp :=
  [.addPeer "root" none [], .addPeer "viewer" none ["root"], .removePeer "root", .reassignPeer "viewer" ["viewer"]]

theorem orphan_becomes_own_parent :
    ¬ ∀ (config : MeshConfig) (ops : List MeshOp), (Machine.run Recovery.apply (start config) ops).waiting = [] →
      ∀ id ∈ (Machine.run Recovery.apply (start config) ops).mesh.peers,
        Grounded (Machine.run Recovery.apply (start config) ops).mesh.parentOf
          (IsRoot (Machine.run Recovery.apply (start config) ops).mesh) id := by
  intro always
  obtain ⟨top, climb, isRoot⟩ := always oneRoot rootLeaves (by decide) "viewer" (by decide)
  have self : (Machine.run Recovery.apply (start oneRoot) rootLeaves).mesh.parentOf "viewer" = some "viewer" := by
    decide
  have stuck : top = "viewer" := by
    clear isRoot
    induction climb with
    | refl => rfl
    | tail _ points ih =>
        subst ih
        exact (Option.some.inj (self.symm.trans points)).symm
  subst stuck
  revert isRoot
  rw [IsRoot]
  decide

end Lvqr.Mesh
