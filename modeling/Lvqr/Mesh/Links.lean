import Lvqr.Mesh.Coordinator
import Lvqr.Lib.Machine

set_option autoImplicit false

namespace Lvqr.Mesh

namespace MeshCoordinator

def parentOf (mesh : MeshCoordinator) (id : PeerId) : Option PeerId :=
  (mesh.peers.lookup id).bind PeerInfo.parent

-- Parent pointers and child lists say the same, and nobody is overloaded. A
-- peer is listed by its parent once and by no other peer at all.
structure LinksConsistent (mesh : MeshCoordinator) : Prop where
  keyed : ∀ id info, mesh.peers.lookup id = some info → info.id = id
  listed : ∀ parent info, mesh.peers.lookup parent = some info → ∀ child,
    info.children.count child = if mesh.parentOf child = some parent then 1 else 0
  withinCapacity : ∀ parent info, mesh.peers.lookup parent = some info →
    info.childCount ≤ info.effectiveCapacity mesh.config.maxChildren

def Detached (mesh : MeshCoordinator) (id : PeerId) : Prop :=
  ∀ other, other ≠ id → mesh.parentOf other ≠ some id ∧ (other ∈ mesh.peers → mesh.parentOf id ≠ some other)

-- The parent `add_peer` gives a new peer, `none` for a root slot.
def placement (mesh : MeshCoordinator) (order : List PeerId) : Except MeshError (Option PeerId) :=
  if mesh.rootCount < mesh.config.rootPeerCount then .ok none
  else
    match mesh.findBestParent order with
    | .error error => .error error
    | .ok parent =>
        if mesh.config.maxDepth < mesh.depthUnder parent 1 then .error (.treeDepthExceeded mesh.config.maxDepth)
        else .ok (some parent)

-- `add_peer` replaces the entry of an id that is already there without looking
-- at its links; `reassign_peer` lists the peer again under a parent it keeps.
def KeepsLinks (mesh : MeshCoordinator) : MeshOp → Prop
  | .addPeer id capacity order => ∀ parent, mesh.placement order = .ok parent →
      mesh.Detached id ∧
        (parent = some id → 0 < { PeerInfo.new id with capacity := capacity }.effectiveCapacity mesh.config.maxChildren)
  | .removePeer _ => True
  | .reassignPeer id order => ∀ parent, mesh.parentOf id = some parent → mesh.findBestParent order ≠ .ok parent

theorem room_for_child (info after : PeerInfo) (id : PeerId) (defaultMax : Nat)
    (room : info.childCount < info.effectiveCapacity defaultMax) (children : after.children = info.children ++ [id])
    (capacity : after.capacity = info.capacity) : after.childCount ≤ after.effectiveCapacity defaultMax := by
  have grown : after.childCount = info.childCount + 1 := by
    simp only [PeerInfo.childCount, children, List.length_append, List.length_singleton]
  have bound : after.effectiveCapacity defaultMax = info.effectiveCapacity defaultMax := by
    simp only [PeerInfo.effectiveCapacity, capacity]
  omega

def Eligible (mesh : MeshCoordinator) (id : PeerId) : Prop :=
  ∃ info, mesh.peers.lookup id = some info ∧ info.childCount < info.effectiveCapacity mesh.config.maxChildren

theorem consider_eligible (config : MeshConfig) (peers : List PeerInfo) (best : Option Candidate)
    (Good : PeerId → Prop) (start : ∀ chosen ∈ best, Good chosen.id)
    (good : ∀ peer ∈ peers, peer.canAcceptChild config.maxChildren = true → peer.depth < config.maxDepth →
      Good peer.id) :
    ∀ chosen ∈ peers.foldl (consider config) best, Good chosen.id := by
  induction peers generalizing best with
  | nil => exact start
  | cons peer peers ih =>
      apply ih (consider config best peer)
      · intro chosen isChosen
        have here := good peer (by simp)
        cases accepts : peer.canAcceptChild config.maxChildren with
        | false => exact start chosen (by simpa [consider, accepts] using isChosen)
        | true =>
            by_cases deep : config.maxDepth ≤ peer.depth
            · exact start chosen (by simpa [consider, accepts, deep] using isChosen)
            · have shallow : peer.depth < config.maxDepth := Nat.not_le.mp deep
              cases held : best with
              | none =>
                  have isPeer : (⟨peer.id, peer.depth, peer.childCount⟩ : Candidate) = chosen := by
                    simpa [consider, accepts, deep, held] using isChosen
                  exact isPeer ▸ here accepts shallow
              | some old =>
                  by_cases better : (⟨peer.id, peer.depth, peer.childCount⟩ : Candidate).precedes old = true
                  · have isPeer : (⟨peer.id, peer.depth, peer.childCount⟩ : Candidate) = chosen := by
                      simpa [consider, accepts, deep, held, better] using isChosen
                    exact isPeer ▸ here accepts shallow
                  · have isOld : old = chosen := by
                      simpa [consider, accepts, deep, held, better] using isChosen
                    exact isOld ▸ start old held
      · exact fun other member => good other (by simp [member])

-- What holds of the peer a walk over the candidates ends with holds of the parent.
theorem best_parent_chosen (mesh : MeshCoordinator) (order : List PeerId) (parent : PeerId) (Good : PeerId → Prop)
    (good : ∀ best, (order.filterMap mesh.peers.lookup).foldl (consider mesh.config) none = some best → Good best.id)
    (found : mesh.findBestParent order = .ok parent) : Good parent := by
  rw [findBestParent] at found
  cases chosen : (order.filterMap mesh.peers.lookup).foldl (consider mesh.config) none with
  | none => simp [chosen] at found
  | some best =>
      have same : best.id = parent := by simpa [chosen] using found
      exact same ▸ good best chosen

theorem best_parent_eligible (mesh : MeshCoordinator) (order : List PeerId) (parent : PeerId)
    (keyed : ∀ id info, mesh.peers.lookup id = some info → info.id = id)
    (found : mesh.findBestParent order = .ok parent) : mesh.Eligible parent := by
  have eligible := consider_eligible mesh.config (order.filterMap mesh.peers.lookup) none mesh.Eligible (by simp) (by
    intro peer member accepts _
    obtain ⟨id, _, stored⟩ := List.mem_filterMap.mp member
    rw [keyed id peer stored]
    exact ⟨peer, stored, of_decide_eq_true accepts⟩)
  exact best_parent_chosen mesh order parent mesh.Eligible eligible found

theorem lookup_push_child (peers : Table PeerId PeerInfo) (parent child other : PeerId) :
    (pushChild parent child peers).lookup other =
      if other = parent then
        (peers.lookup parent).map fun info => { info with children := info.children ++ [child] }
      else peers.lookup other :=
  Table.lookup_modify peers parent other _

theorem lookup_drop_child (peers : Table PeerId PeerInfo) (parent child other : PeerId) :
    (dropChild parent child peers).lookup other =
      if other = parent then
        (peers.lookup parent).map fun info => { info with children := info.children.filter (· != child) }
      else peers.lookup other :=
  Table.lookup_modify peers parent other _

-- Where `add_peer` puts the newcomer, as one lookup for both kinds of place.
theorem add_lookup (mesh : MeshCoordinator) (id : PeerId) (capacity : Option Nat) (order : List PeerId)
    (parent : Option PeerId) (placed : mesh.placement order = .ok parent) :
    ∃ role depth, ∀ other, (mesh.addPeer id capacity order).2.peers.lookup other =
      (if other = id then some ⟨id, role, parent, [], depth, capacity⟩ else mesh.peers.lookup other).map fun info =>
        { info with children := info.children ++ if parent = some other then [id] else [] } := by
  rw [placement] at placed
  rw [addPeer]
  by_cases slot : mesh.rootCount < mesh.config.rootPeerCount
  · rw [if_pos slot] at placed ⊢
    obtain rfl : none = parent := Except.ok.inj placed
    refine ⟨.root, 0, fun other => ?_⟩
    simp [Table.lookup_insert_eq, PeerInfo.new]
  · rw [if_neg slot] at placed ⊢
    cases found : mesh.findBestParent order with
    | error error => simp [found] at placed
    | ok best =>
        simp only [found] at placed ⊢
        by_cases deep : mesh.config.maxDepth < mesh.depthUnder best 1
        · simp [deep] at placed
        · rw [if_neg deep] at placed ⊢
          obtain rfl : some best = parent := Except.ok.inj placed
          refine ⟨.relay, mesh.depthUnder best 1, fun other => ?_⟩
          rw [lookup_push_child, Table.lookup_insert_eq, Table.lookup_insert_eq]
          by_cases here : other = best
          · subst here
            simp [PeerInfo.new]
          · simp [here, Ne.symm here, PeerInfo.new]

theorem add_rejected (mesh : MeshCoordinator) (id : PeerId) (capacity : Option Nat) (order : List PeerId)
    (error : MeshError) (refused : mesh.placement order = .error error) :
    (mesh.addPeer id capacity order).2 = mesh := by
  rw [placement] at refused
  rw [addPeer]
  by_cases slot : mesh.rootCount < mesh.config.rootPeerCount
  · simp [slot] at refused
  · rw [if_neg slot] at refused ⊢
    cases found : mesh.findBestParent order with
    | error error => rfl
    | ok best =>
        simp only [found] at refused ⊢
        by_cases deep : mesh.config.maxDepth < mesh.depthUnder best 1
        · rw [if_pos deep]
        · simp [deep] at refused

theorem add_config (mesh : MeshCoordinator) (id : PeerId) (capacity : Option Nat) (order : List PeerId) :
    (mesh.addPeer id capacity order).2.config = mesh.config := by
  rw [addPeer]
  split
  · rfl
  · split
    · rfl
    · dsimp only
      split <;> rfl

theorem placed_eligible (mesh : MeshCoordinator) (order : List PeerId) (parent : PeerId)
    (keyed : ∀ id info, mesh.peers.lookup id = some info → info.id = id)
    (placed : mesh.placement order = .ok (some parent)) : mesh.Eligible parent := by
  rw [placement] at placed
  split at placed
  · cases placed
  · split at placed
    · cases placed
    · rename_i best found
      split at placed
      · cases placed
      · obtain rfl : best = parent := Option.some.inj (Except.ok.inj placed)
        exact best_parent_eligible mesh order best keyed found

theorem lookup_orphans (children : List PeerId) (peers : Table PeerId PeerInfo) (other : PeerId) :
    (children.foldl orphan peers).lookup other =
      (peers.lookup other).map fun info =>
        { info with parent := if other ∈ children then none else info.parent } := by
  induction children generalizing peers with
  | nil => simp
  | cons child children ih =>
      rw [List.foldl_cons, ih, orphan, Table.lookup_modify]
      by_cases here : other = child
      · subst here
        simp [Option.map_map, Function.comp_def]
      · simp [here]

theorem remove_lookup (mesh : MeshCoordinator) (id : PeerId) (peer : PeerInfo)
    (found : mesh.peers.lookup id = some peer) (other : PeerId) :
    (mesh.removePeer id).2.peers.lookup other =
      if other = id then none
      else (mesh.peers.lookup other).map fun info =>
        { info with
          children := if peer.parent = some other then info.children.filter (· != id) else info.children
          parent := if other ∈ peer.children then none else info.parent } := by
  simp only [removePeer, found, lookup_orphans]
  cases isParent : peer.parent with
  | none =>
      simp only [Table.lookup_erase_eq]
      by_cases self : other = id
      · simp [self]
      · simp [self]
  | some parent =>
      simp only [lookup_drop_child, Table.lookup_erase_eq]
      by_cases here : other = parent
      · subst here
        by_cases self : other = id
        · simp [self]
        · simp [self, Option.map_map, Function.comp_def]
      · by_cases self : other = id
        · subst self
          simp [here]
        · simp [here, Ne.symm here, self]

theorem reassign_lookup (mesh : MeshCoordinator) (id parent : PeerId) (peer : PeerInfo) (order : List PeerId)
    (known : mesh.peers.lookup id = some peer) (found : mesh.findBestParent order = .ok parent)
    (other : PeerId) :
    (mesh.reassignPeer id order).2.peers.lookup other =
      (mesh.peers.lookup other).map fun info =>
        { info with
          parent := if other = id then some parent else info.parent
          depth := if other = id then mesh.depthUnder parent 1 else info.depth
          children :=
            (if peer.parent = some other ∧ other ≠ parent then info.children.filter (· != id) else info.children) ++
              if other = parent then [id] else [] } := by
  have moved : ∀ other,
      (mesh.peers.insert id { peer with parent := some parent, depth := mesh.depthUnder parent 1 }).lookup other =
        (mesh.peers.lookup other).map fun info =>
          { info with
            parent := if other = id then some parent else info.parent
            depth := if other = id then mesh.depthUnder parent 1 else info.depth } := by
    intro other
    rw [Table.lookup_insert_eq]
    by_cases self : other = id
    · subst self
      simp [known]
    · simp [self]
  simp only [reassignPeer, known, found, lookup_push_child]
  cases isParent : peer.parent with
  | none =>
      simp only [moved]
      by_cases here : other = parent
      · subst here
        simp [Option.map_map, Function.comp_def]
      · simp [here]
  | some old =>
      by_cases keeps : old = parent
      · subst keeps
        simp only [bne_self_eq_false, Bool.false_eq_true, if_false, moved]
        by_cases here : other = old
        · subst here
          simp [Option.map_map, Function.comp_def]
        · simp [here, Ne.symm here]
      · have differs : (old != parent) = true := by simp [keeps]
        simp only [differs, if_true, lookup_drop_child, moved]
        by_cases here : other = parent
        · subst here
          simp [Ne.symm keeps, Option.map_map, Function.comp_def]
        · by_cases left : other = old
          · subst left
            simp [here, Option.map_map, Function.comp_def]
          · simp [here, left, Ne.symm left]

theorem add_parent_of (mesh : MeshCoordinator) (id : PeerId) (capacity : Option Nat) (order : List PeerId)
    (parent : Option PeerId) (placed : mesh.placement order = .ok parent) (other : PeerId) :
    (mesh.addPeer id capacity order).2.parentOf other = if other = id then parent else mesh.parentOf other := by
  obtain ⟨role, depth, lookup⟩ := mesh.add_lookup id capacity order parent placed
  rw [parentOf, lookup]
  by_cases self : other = id
  · simp [self]
  · rw [if_neg self, if_neg self, parentOf]
    cases mesh.peers.lookup other <;> rfl

theorem add_keeps (mesh : MeshCoordinator) (id : PeerId) (capacity : Option Nat) (order : List PeerId)
    (parent : Option PeerId) (links : mesh.LinksConsistent) (placed : mesh.placement order = .ok parent)
    (detached : mesh.Detached id)
    (room : parent = some id →
      0 < { PeerInfo.new id with capacity := capacity }.effectiveCapacity mesh.config.maxChildren) :
    (mesh.addPeer id capacity order).2.LinksConsistent := by
  obtain ⟨role, depth, lookup⟩ := mesh.add_lookup id capacity order parent placed
  have parents := mesh.add_parent_of id capacity order parent placed
  have config := mesh.add_config id capacity order
  refine ⟨?_, ?_, ?_⟩
  · intro other after stored
    rw [lookup] at stored
    obtain ⟨before, wasStored, rfl⟩ := Option.map_eq_some_iff.mp stored
    by_cases self : other = id
    · subst self
      obtain rfl := Option.some.inj ((if_pos rfl).symm.trans wasStored)
      rfl
    · rw [if_neg self] at wasStored
      exact links.keyed other before wasStored
  · intro other after stored child
    rw [lookup] at stored
    rw [parents]
    obtain ⟨before, wasStored, rfl⟩ := Option.map_eq_some_iff.mp stored
    by_cases self : other = id
    · subst self
      obtain rfl := Option.some.inj ((if_pos rfl).symm.trans wasStored)
      by_cases isSelf : child = other
      · subst isSelf
        by_cases own : parent = some child <;> simp [own]
      · have foreign := (detached child isSelf).1
        by_cases own : parent = some other <;> simp [own, isSelf, foreign, Ne.symm isSelf]
    · rw [if_neg self] at wasStored
      have count := links.listed other before wasStored child
      have known : other ∈ mesh.peers := Table.mem_of_lookup wasStored
      by_cases isNew : child = id
      · subst isNew
        rw [if_neg ((detached other self).2 known)] at count
        by_cases here : parent = some other <;> simp [here, count]
      · by_cases here : parent = some other <;> simp [here, count, isNew, Ne.symm isNew]
  · intro other after stored
    rw [lookup] at stored
    obtain ⟨before, wasStored, rfl⟩ := Option.map_eq_some_iff.mp stored
    rw [config]
    by_cases self : other = id
    · subst self
      obtain rfl := Option.some.inj ((if_pos rfl).symm.trans wasStored)
      by_cases own : parent = some other
      · simpa [own, PeerInfo.childCount, PeerInfo.effectiveCapacity, Nat.lt_iff_add_one_le] using room own
      · simp [own, PeerInfo.childCount]
    · rw [if_neg self] at wasStored
      by_cases here : parent = some other
      · obtain ⟨info, isInfo, free⟩ := mesh.placed_eligible order other links.keyed (here ▸ placed)
        obtain rfl : info = before := Option.some.inj (isInfo.symm.trans wasStored)
        exact room_for_child info _ id _ free (by simp only [if_pos here]) rfl
      · simpa [here, PeerInfo.childCount, PeerInfo.effectiveCapacity] using links.withinCapacity other before wasStored

theorem add_keeps_only (mesh : MeshCoordinator) (id : PeerId) (capacity : Option Nat) (order : List PeerId)
    (parent : Option PeerId) (links : mesh.LinksConsistent) (placed : mesh.placement order = .ok parent)
    (after : (mesh.addPeer id capacity order).2.LinksConsistent) :
    mesh.Detached id ∧
      (parent = some id →
        0 < { PeerInfo.new id with capacity := capacity }.effectiveCapacity mesh.config.maxChildren) := by
  obtain ⟨role, depth, lookup⟩ := mesh.add_lookup id capacity order parent placed
  have parents := mesh.add_parent_of id capacity order parent placed
  have newcomer := lookup id
  rw [if_pos rfl] at newcomer
  refine ⟨?_, ?_⟩
  · intro other different
    refine ⟨?_, ?_⟩
    · intro isParent
      have count := after.listed id _ newcomer other
      rw [parents, if_neg different, if_pos isParent] at count
      by_cases own : parent = some id <;> simp [own, Ne.symm different] at count
    · intro known isParent
      obtain ⟨info, stored⟩ := Table.lookup_of_mem known
      have before := links.listed other info stored id
      have listedAfter := lookup other
      rw [if_neg different, stored] at listedAfter
      have count := after.listed other _ listedAfter id
      rw [parents, if_pos rfl] at count
      rw [if_pos isParent] at before
      by_cases here : parent = some other <;> simp [here, before] at count
  · intro own
    have bound := after.withinCapacity id _ newcomer
    rw [mesh.add_config] at bound
    simpa [own, PeerInfo.childCount, PeerInfo.effectiveCapacity, Nat.lt_iff_add_one_le] using bound

theorem remove_survivor (mesh : MeshCoordinator) (id : PeerId) (peer : PeerInfo)
    (found : mesh.peers.lookup id = some peer) (other : PeerId) (after : PeerInfo)
    (stored : (mesh.removePeer id).2.peers.lookup other = some after) :
    other ≠ id ∧ ∃ before, mesh.peers.lookup other = some before ∧
      after = { before with
        children := if peer.parent = some other then before.children.filter (· != id) else before.children
        parent := if other ∈ peer.children then none else before.parent } := by
  rw [mesh.remove_lookup id peer found] at stored
  by_cases self : other = id
  · simp [self] at stored
  · rw [if_neg self] at stored
    obtain ⟨before, wasStored, rfl⟩ := Option.map_eq_some_iff.mp stored
    exact ⟨self, before, wasStored, rfl⟩

-- Whoever had the removed peer for a parent has none now.
theorem remove_parent_of (mesh : MeshCoordinator) (id : PeerId) (links : mesh.LinksConsistent) (peer : PeerInfo)
    (found : mesh.peers.lookup id = some peer) (child : PeerId) :
    (mesh.removePeer id).2.parentOf child =
      if child = id ∨ mesh.parentOf child = some id then none else mesh.parentOf child := by
  have orphans : child ∈ peer.children ↔ mesh.parentOf child = some id := by
    rw [← List.count_pos_iff, links.listed id peer found child]
    split
    · simp_all
    · simp_all
  rw [parentOf, mesh.remove_lookup id peer found]
  by_cases self : child = id
  · simp [self]
  · rw [if_neg self]
    by_cases orphaned : mesh.parentOf child = some id
    · have member := orphans.mpr orphaned
      rw [if_pos (.inr orphaned)]
      cases mesh.peers.lookup child <;> simp [member]
    · have kept : child ∉ peer.children := fun member => orphaned (orphans.mp member)
      rw [if_neg (by simp [self, orphaned]), parentOf]
      cases mesh.peers.lookup child <;> simp [kept]

theorem remove_keeps (mesh : MeshCoordinator) (id : PeerId) (links : mesh.LinksConsistent) :
    (mesh.removePeer id).2.LinksConsistent := by
  cases found : mesh.peers.lookup id with
  | none =>
      rw [removePeer, found]
      exact links
  | some peer =>
      have config : (mesh.removePeer id).2.config = mesh.config := by simp only [removePeer, found]
      refine ⟨?_, ?_, ?_⟩
      · intro other after stored
        obtain ⟨_, before, wasStored, rfl⟩ := mesh.remove_survivor id peer found other after stored
        exact links.keyed other before wasStored
      · intro other after stored child
        obtain ⟨self, before, wasStored, rfl⟩ := mesh.remove_survivor id peer found other after stored
        have count := links.listed other before wasStored child
        rw [mesh.remove_parent_of id links peer found]
        by_cases isRemoved : child = id
        · subst isRemoved
          have own : mesh.parentOf child = peer.parent := by rw [parentOf, found, Option.bind_some]
          rw [own] at count
          by_cases here : peer.parent = some other <;> simp [here, count, List.count_eq_zero]
        · have kept : (before.children.filter (· != id)).count child = before.children.count child :=
            List.count_filter (by simp [isRemoved])
          rw [apply_ite (List.count child), kept, ite_self, count]
          by_cases orphaned : mesh.parentOf child = some id
          · simp [orphaned, Ne.symm self]
          · simp [isRemoved, orphaned]
      · intro other after stored
        obtain ⟨_, before, wasStored, rfl⟩ := mesh.remove_survivor id peer found other after stored
        have bound := links.withinCapacity other before wasStored
        have shorter := List.length_filter_le (· != id) before.children
        rw [config]
        by_cases here : peer.parent = some other
        · simpa [here, PeerInfo.childCount, PeerInfo.effectiveCapacity] using Nat.le_trans shorter bound
        · simpa [here, PeerInfo.childCount, PeerInfo.effectiveCapacity] using bound

theorem reassign_parent_of (mesh : MeshCoordinator) (id parent : PeerId) (peer : PeerInfo) (order : List PeerId)
    (known : mesh.peers.lookup id = some peer) (found : mesh.findBestParent order = .ok parent)
    (other : PeerId) :
    (mesh.reassignPeer id order).2.parentOf other = if other = id then some parent else mesh.parentOf other := by
  rw [parentOf, mesh.reassign_lookup id parent peer order known found]
  by_cases self : other = id
  · subst self
    simp [known]
  · rw [if_neg self, parentOf]
    cases mesh.peers.lookup other <;> simp [self]

theorem reassign_keeps_iff (mesh : MeshCoordinator) (id parent : PeerId) (peer : PeerInfo) (order : List PeerId)
    (links : mesh.LinksConsistent) (known : mesh.peers.lookup id = some peer)
    (found : mesh.findBestParent order = .ok parent) :
    (mesh.reassignPeer id order).2.LinksConsistent ↔ peer.parent ≠ some parent := by
  have lookup := mesh.reassign_lookup id parent peer order known found
  have parents := mesh.reassign_parent_of id parent peer order known found
  have config : (mesh.reassignPeer id order).2.config = mesh.config := by simp only [reassignPeer, known, found]
  have own : mesh.parentOf id = peer.parent := by rw [parentOf, known, Option.bind_some]
  obtain ⟨chosen, isChosen, free⟩ := mesh.best_parent_eligible order parent links.keyed found
  constructor
  · intro after keeps
    have listedAfter := lookup parent
    rw [isChosen] at listedAfter
    have count := after.listed parent _ listedAfter id
    have before := links.listed parent chosen isChosen id
    rw [own, if_pos keeps] at before
    simp [parents, before] at count
  · intro moves
    refine ⟨?_, ?_, ?_⟩
    · intro other after stored
      rw [lookup] at stored
      obtain ⟨before, wasStored, rfl⟩ := Option.map_eq_some_iff.mp stored
      exact links.keyed other before wasStored
    · intro other after stored child
      rw [lookup] at stored
      obtain ⟨before, wasStored, rfl⟩ := Option.map_eq_some_iff.mp stored
      have count := links.listed other before wasStored child
      rw [parents, List.count_append]
      by_cases isMoved : child = id
      · subst isMoved
        rw [own] at count
        by_cases here : other = parent
        · subst here
          rw [if_neg moves] at count
          simp [count]
        · by_cases left : peer.parent = some other <;> simp [here, Ne.symm here, left, count, List.count_eq_zero]
      · have kept : (before.children.filter (· != id)).count child = before.children.count child :=
          List.count_filter (by simp [isMoved])
        rw [apply_ite (List.count child), kept, ite_self, count]
        by_cases here : other = parent <;> simp [here, isMoved, Ne.symm isMoved]
    · intro other after stored
      rw [lookup] at stored
      obtain ⟨before, wasStored, rfl⟩ := Option.map_eq_some_iff.mp stored
      have bound := links.withinCapacity other before wasStored
      rw [config]
      by_cases here : other = parent
      · subst here
        obtain rfl : chosen = before := Option.some.inj (isChosen.symm.trans wasStored)
        exact room_for_child chosen _ id _ free (by simp) rfl
      · have shorter := List.length_filter_le (· != id) before.children
        by_cases left : peer.parent = some other
        · simpa [here, left, PeerInfo.childCount, PeerInfo.effectiveCapacity] using Nat.le_trans shorter bound
        · simpa [here, left, PeerInfo.childCount, PeerInfo.effectiveCapacity] using bound

theorem step_keeps_iff (mesh : MeshCoordinator) (op : MeshOp) (links : mesh.LinksConsistent) :
    (mesh.apply op).LinksConsistent ↔ mesh.KeepsLinks op := by
  cases op with
  | addPeer id capacity order =>
      cases placed : mesh.placement order with
      | error error =>
          have unchanged : mesh.apply (.addPeer id capacity order) = mesh :=
            mesh.add_rejected id capacity order error placed
          rw [unchanged]
          exact ⟨fun _ parent isPlaced => by simp [placed] at isPlaced, fun _ => links⟩
      | ok parent =>
          constructor
          · intro after other isPlaced
            obtain rfl : parent = other := Except.ok.inj (placed.symm.trans isPlaced)
            exact mesh.add_keeps_only id capacity order parent links placed after
          · intro keeps
            obtain ⟨detached, room⟩ := keeps parent placed
            exact mesh.add_keeps id capacity order parent links placed detached room
  | removePeer id => exact ⟨fun _ => trivial, fun _ => mesh.remove_keeps id links⟩
  | reassignPeer id order =>
      cases known : mesh.peers.lookup id with
      | none =>
          have unchanged : mesh.apply (.reassignPeer id order) = mesh := by simp only [apply, reassignPeer, known]
          have absent : mesh.parentOf id = none := by rw [parentOf, known, Option.bind_none]
          rw [unchanged]
          exact ⟨fun _ parent isParent => by simp [absent] at isParent, fun _ => links⟩
      | some peer =>
          have own : mesh.parentOf id = peer.parent := by rw [parentOf, known, Option.bind_some]
          cases found : mesh.findBestParent order with
          | error error =>
              have unchanged : mesh.apply (.reassignPeer id order) = mesh := by
                simp only [apply, reassignPeer, known, found]
              rw [unchanged]
              exact ⟨fun _ parent _ isFound => by simp [found] at isFound, fun _ => links⟩
          | ok best =>
              rw [apply, mesh.reassign_keeps_iff id best peer order links known found]
              constructor
              · intro moves parent isParent isFound
                obtain rfl : best = parent := Except.ok.inj (found.symm.trans isFound)
                exact moves (own.symm.trans isParent)
              · intro keeps isParent
                exact keeps best (own.trans isParent) found

theorem new_consistent (config : MeshConfig) : (new config).LinksConsistent := by
  refine ⟨?_, ?_, ?_⟩ <;> simp [new]

end MeshCoordinator

open MeshCoordinator

-- The links stay consistent in exactly the runs in which no id is taken over
-- from a linked peer and no peer is reassigned to the parent it has.
theorem mesh_links_consistent_iff (config : MeshConfig) (ops : List MeshOp) :
    (∀ seen, seen <+: ops → (Machine.run apply (new config) seen).LinksConsistent) ↔
      Machine.AllSteps KeepsLinks apply (new config) ops :=
  Machine.invariant_iff_guarded step_keeps_iff (new config) ops (new_consistent config)

def oneRoot : MeshConfig := ⟨3, 1, 6⟩

-- The only root has room for more, so it is the best parent again.
def reassignedInPlace : List MeshOp :=
  [.addPeer "root" none [], .addPeer "viewer" none ["root"], .reassignPeer "viewer" ["root", "viewer"]]

theorem reassigned_peer_listed_twice :
    ¬ ∀ (config : MeshConfig) (ops : List MeshOp), (Machine.run apply (new config) ops).LinksConsistent := by
  intro always
  have links := always oneRoot reassignedInPlace
  have twice : (Machine.run apply (new oneRoot) reassignedInPlace).peers.lookup "root" =
      some ⟨"root", .root, none, ["viewer", "viewer"], 0, none⟩ := by decide
  have count := links.listed "root" _ twice "viewer"
  revert count
  decide

end Lvqr.Mesh
