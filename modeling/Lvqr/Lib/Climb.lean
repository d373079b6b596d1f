import Mathlib.Logic.Relation

set_option autoImplicit false

-- A partial map that points every node at most one step up, as parent pointers
-- do. Nothing bounds the number of nodes; a climb is a finite path.
namespace Climb

variable {Node : Type*}

def Above (up : Node → Option Node) (node next : Node) : Prop := up node = some next

def Climbs (up : Node → Option Node) : Node → Node → Prop := Relation.ReflTransGen (Above up)

def Ancestor (up : Node → Option Node) : Node → Node → Prop := Relation.TransGen (Above up)

def Acyclic (up : Node → Option Node) : Prop := ∀ node, ¬ Ancestor up node node

def Grounded (up : Node → Option Node) (Ground : Node → Prop) (node : Node) : Prop :=
  ∃ top, Climbs up node top ∧ Ground top

theorem Climbs.here (up : Node → Option Node) (node : Node) : Climbs up node node := .refl

theorem Climbs.step {up : Node → Option Node} {node next top : Node} (points : up node = some next)
    (climb : Climbs up next top) : Climbs up node top := .head points climb

-- A climb either survives a change of pointers or runs into the first changed
-- node, from which the old climb went on.
theorem climbs_or_meets {up after : Node → Option Node} (Changed : Node → Prop)
    (agree : ∀ node, ¬ Changed node → after node = up node) {node top : Node} (climb : Climbs up node top) :
    Climbs after node top ∨ ∃ met, Changed met ∧ Climbs after node met ∧ Climbs up met top := by
  induction climb using Relation.ReflTransGen.head_induction_on with
  | refl => exact .inl (.here after top)
  | @head node next points climb ih =>
      by_cases changed : Changed node
      · exact .inr ⟨node, changed, .here after node, .step points climb⟩
      · have kept : after node = some next := (agree node changed).trans points
        rcases ih with survives | ⟨met, isChanged, before, rest⟩
        · exact .inl (.step kept survives)
        · exact .inr ⟨met, isChanged, .step kept before, rest⟩

-- Up to the changed node itself nothing has changed.
theorem climbs_to_changed {up after : Node → Option Node} {node changed : Node}
    (agree : ∀ other, other ≠ changed → after other = up other) (climb : Climbs up node changed) :
    Climbs after node changed := by
  rcases climbs_or_meets (· = changed) agree climb with survives | ⟨met, rfl, before, _⟩
  · exact survives
  · exact before

theorem acyclic_of_fewer {up after : Node → Option Node} (acyclic : Acyclic up)
    (fewer : ∀ node next, after node = some next → up node = some next) : Acyclic after := by
  intro node cycle
  exact acyclic node (Relation.TransGen.mono fewer node node cycle)

-- Pointing one node at another closes a cycle exactly where the target climbs
-- back to the node.
theorem acyclic_repoint_iff {up after : Node → Option Node} {changed target : Node} (acyclic : Acyclic up)
    (agree : ∀ other, other ≠ changed → after other = up other) (points : after changed = some target) :
    Acyclic after ↔ ¬ Climbs up target changed := by
  constructor
  · intro stays climb
    exact stays changed (.head' points (climbs_to_changed agree climb))
  · intro apart
    have back : ∀ other, other ≠ changed → up other = after other := fun other differs => (agree other differs).symm
    have through : ¬ Ancestor after changed changed := by
      intro cycle
      obtain ⟨next, first, climb⟩ := Relation.TransGen.head'_iff.mp cycle
      obtain rfl : target = next := Option.some.inj (points.symm.trans first)
      exact apart (climbs_to_changed back climb)
    intro node cycle
    by_cases same : node = changed
    · exact through (same ▸ cycle)
    · obtain ⟨next, first, climb⟩ := Relation.TransGen.head'_iff.mp cycle
      have before : up node = some next := (agree node same).symm.trans first
      rcases climbs_or_meets (· = changed) back climb with survives | ⟨met, rfl, reached, rest⟩
      · exact acyclic node (.head' before survives)
      · have down : Climbs after next met := climbs_to_changed agree reached
        exact through (Relation.TransGen.trans_right rest (.head' first down))

-- Where every node whose pointer changed is grounded again, so is every node.
-- `Live` leaves out nodes that no kept pointer reaches.
theorem grounded_of_changed {up after : Node → Option Node} {Ground Ground' : Node → Prop} (Changed Live : Node → Prop)
    (agree : ∀ node, ¬ Changed node → after node = up node)
    (stays : ∀ node next, Live node → ¬ Changed node → up node = some next → Live next)
    (grounds : ∀ node, Live node → Changed node → Grounded up Ground node → Grounded after Ground' node)
    (keeps : ∀ node, Live node → ¬ Changed node → Ground node → Ground' node)
    {node : Node} (live : Live node) (grounded : Grounded up Ground node) : Grounded after Ground' node := by
  obtain ⟨top, climb, ground⟩ := grounded
  induction climb using Relation.ReflTransGen.head_induction_on with
  | refl =>
      by_cases changed : Changed top
      · exact grounds top live changed ⟨top, .here up top, ground⟩
      · exact ⟨top, .here after top, keeps top live changed ground⟩
  | @head node next points climb ih =>
      by_cases changed : Changed node
      · exact grounds node live changed ⟨top, .step points climb, ground⟩
      · obtain ⟨high, further, isGround⟩ := ih (stays node next live changed points)
        exact ⟨high, .step ((agree node changed).trans points) further, isGround⟩

-- The same climb avoids a node it never meets.
theorem grounded_repoint {up after : Node → Option Node} {Ground Ground' : Node → Prop} {changed target : Node}
    (agree : ∀ other, other ≠ changed → after other = up other) (points : after changed = some target)
    (keeps : ∀ node, node ≠ changed → Ground node → Ground' node)
    (apart : ¬ Climbs up target changed) (high : Grounded up Ground target)
    {node : Node} (grounded : Grounded up Ground node) : Grounded after Ground' node := by
  have targetGrounded : Grounded after Ground' target := by
    obtain ⟨top, climb, ground⟩ := high
    rcases climbs_or_meets (· = changed) agree climb with survives | ⟨met, rfl, reached, _⟩
    · have differs : top ≠ changed := fun same => apart (same ▸ climb)
      exact ⟨top, survives, keeps top differs ground⟩
    · have back := climbs_to_changed (fun other differs => (agree other differs).symm) reached
      exact absurd back apart
  have changedGrounded : Grounded after Ground' changed := by
    obtain ⟨top, climb, ground⟩ := targetGrounded
    exact ⟨top, .step points climb, ground⟩
  refine grounded_of_changed (· = changed) (fun _ => True) agree
    (fun _ _ _ _ _ => trivial) ?_ (fun other _ differs => keeps other differs) trivial grounded
  intro other _ same _
  exact same ▸ changedGrounded

end Climb
