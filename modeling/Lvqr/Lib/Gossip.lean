import Lvqr.Lib.Machine
import Lvqr.Lib.Table

set_option autoImplicit false

-- Key-values that every node writes for itself and that packets carry to the others.
-- Packets may be lost, doubled and overtaken; a copy only ever moves to a newer version.
structure Versioned (Value : Type) where
  version : Nat
  value : Value
deriving DecidableEq

structure Packet (Node Key Value : Type) where
  owner : Node
  key : Key
  entry : Versioned Value

-- `copies node owner` is what the node has of the owner, `latest` the last version that
-- an owner gave out.
structure Gossip (Node Key Value : Type) where
  copies : Node → Node → Table Key (Versioned Value)
  latest : Node → Nat
  packets : List (Packet Node Key Value)

namespace Gossip

variable {Node Key Value : Type} [DecidableEq Node] [DecidableEq Key]

inductive Op (Node Key Value : Type) where
  | set (node : Node) (key : Key) (value : Value)
  | send (node owner : Node) (key : Key)
  | receive (node : Node) (index : Nat)

def start : Gossip Node Key Value := ⟨fun _ _ => ∅, fun _ => 0, []⟩

def copy (gossip : Gossip Node Key Value) (node owner : Node) (key : Key) : Option (Versioned Value) :=
  (gossip.copies node owner).lookup key

def put (gossip : Gossip Node Key Value) (node owner : Node) (key : Key) (entry : Versioned Value) :
    Gossip Node Key Value :=
  { gossip with
    copies := fun other source =>
      if other = node ∧ source = owner then (gossip.copies node owner).insert key entry
      else gossip.copies other source }

def isNewer (entry : Versioned Value) : Option (Versioned Value) → Bool
  | none => true
  | some held => held.version < entry.version

def step (gossip : Gossip Node Key Value) : Op Node Key Value → Gossip Node Key Value
  | .set node key value =>
      let version := gossip.latest node + 1
      { gossip.put node node key ⟨version, value⟩ with latest := Function.update gossip.latest node version }
  | .send node owner key =>
      match gossip.copy node owner key with
      | none => gossip
      | some entry => { gossip with packets := gossip.packets ++ [⟨owner, key, entry⟩] }
  | .receive node index =>
      match gossip.packets[index]? with
      | none => gossip
      | some packet =>
          if isNewer packet.entry (gossip.copy node packet.owner packet.key) then
            gossip.put node packet.owner packet.key packet.entry
          else gossip

theorem copy_put (gossip : Gossip Node Key Value) (node owner other source : Node) (key one : Key)
    (entry : Versioned Value) : (gossip.put node owner key entry).copy other source one =
      if other = node ∧ source = owner ∧ one = key then some entry else gossip.copy other source one := by
  rw [copy, put]
  dsimp only
  by_cases here : other = node ∧ source = owner
  · obtain ⟨rfl, rfl⟩ := here
    rw [if_pos ⟨rfl, rfl⟩, Table.lookup_insert_eq]
    by_cases same : one = key
    · rw [if_pos same, if_pos ⟨rfl, rfl, same⟩]
    · rw [if_neg same, if_neg fun both => same both.2.2]
      rfl
  · rw [if_neg here, if_neg fun both => here ⟨both.1, both.2.1⟩]
    rfl

theorem copy_set (gossip : Gossip Node Key Value) (node other source : Node) (key one : Key) (value : Value) :
    (gossip.step (.set node key value)).copy other source one =
      if other = node ∧ source = node ∧ one = key then some ⟨gossip.latest node + 1, value⟩
      else gossip.copy other source one :=
  copy_put gossip node node other source key one ⟨gossip.latest node + 1, value⟩

-- What there is of a key of an owner, as a copy or under way.
def Holds (gossip : Gossip Node Key Value) (owner : Node) (key : Key) (entry : Versioned Value) : Prop :=
  (∃ node, gossip.copy node owner key = some entry) ∨ ⟨owner, key, entry⟩ ∈ gossip.packets

-- Nothing comes up that its owner does not set.
theorem step_holds (gossip : Gossip Node Key Value) (op : Op Node Key Value) (owner : Node) (key : Key)
    (entry : Versioned Value) (holds : (gossip.step op).Holds owner key entry) :
    gossip.Holds owner key entry ∨ op = .set owner key entry.value ∧ entry.version = gossip.latest owner + 1 := by
  cases op with
  | set node one value =>
      rcases holds with ⟨other, copied⟩ | carried
      · rw [copy_set] at copied
        split at copied
        · rename_i here
          obtain ⟨rfl, rfl, rfl⟩ := here
          cases copied
          exact .inr ⟨rfl, rfl⟩
        · exact .inl (.inl ⟨other, copied⟩)
      · exact .inl (.inr carried)
  | send node source one =>
      rw [step] at holds
      split at holds
      · exact .inl holds
      · rename_i sent isCopy
        rcases holds with copied | carried
        · exact .inl (.inl copied)
        · rcases List.mem_append.mp carried with earlier | last
          · exact .inl (.inr earlier)
          · cases List.mem_singleton.mp last
            exact .inl (.inl ⟨node, isCopy⟩)
  | receive node index =>
      rw [step] at holds
      split at holds
      · exact .inl holds
      · rename_i packet found
        split at holds
        · rcases holds with ⟨other, copied⟩ | carried
          · rw [copy_put] at copied
            split at copied
            · rename_i here
              obtain ⟨rfl, rfl, rfl⟩ := here
              cases copied
              exact .inl (.inr (List.mem_of_getElem? found))
            · exact .inl (.inl ⟨other, copied⟩)
          · exact .inl (.inr carried)
        · exact .inl holds

omit [DecidableEq Node] in
theorem start_holds (owner : Node) (key : Key) (entry : Versioned Value) :
    ¬ (start : Gossip Node Key Value).Holds owner key entry := by
  rintro (⟨node, copied⟩ | carried)
  · cases copied
  · cases carried

-- The owner is never behind.
structure Sound (gossip : Gossip Node Key Value) : Prop where
  ahead : ∀ owner key entry, gossip.Holds owner key entry →
    ∃ own, gossip.copy owner owner key = some own ∧ entry.version ≤ own.version
  bounded : ∀ owner key entry, gossip.Holds owner key entry → entry.version ≤ gossip.latest owner

omit [DecidableEq Node] in
theorem start_sound : (start : Gossip Node Key Value).Sound where
  ahead := fun owner key entry holds => absurd holds (start_holds owner key entry)
  bounded := fun owner key entry holds => absurd holds (start_holds owner key entry)

-- A packet about the receiver itself has nothing new.
theorem receive_own (gossip : Gossip Node Key Value) (sound : gossip.Sound) (node owner : Node) (index : Nat) (key : Key) :
    (gossip.step (.receive node index)).copy owner owner key = gossip.copy owner owner key := by
  rw [step]
  split
  · rfl
  · rename_i packet found
    split
    · rename_i newer
      rw [copy_put, if_neg]
      rintro ⟨rfl, isOwner, rfl⟩
      obtain ⟨own, copied, ahead⟩ := sound.ahead packet.owner packet.key packet.entry (.inr (List.mem_of_getElem? found))
      rw [isOwner, copied, isNewer] at newer
      have less : own.version < packet.entry.version := of_decide_eq_true newer
      omega
    · rfl

theorem step_own (gossip : Gossip Node Key Value) (sound : gossip.Sound) (op : Op Node Key Value) (owner : Node)
    (key : Key) : (∃ value, op = .set owner key value ∧
        (gossip.step op).copy owner owner key = some ⟨gossip.latest owner + 1, value⟩) ∨
      (∀ value, op ≠ .set owner key value) ∧ (gossip.step op).copy owner owner key = gossip.copy owner owner key := by
  cases op with
  | set node one value =>
      by_cases here : owner = node ∧ key = one
      · obtain ⟨rfl, rfl⟩ := here
        exact .inl ⟨value, rfl, by rw [copy_set, if_pos ⟨rfl, rfl, rfl⟩]⟩
      · refine .inr ⟨fun other same => ?_, ?_⟩
        · cases same
          exact here ⟨rfl, rfl⟩
        · rw [copy_set, if_neg fun both => here ⟨both.1, both.2.2⟩]
  | send node source one =>
      refine .inr ⟨nofun, ?_⟩
      rw [step]
      split
      · rfl
      · rfl
  | receive node index => exact .inr ⟨nofun, receive_own gossip sound node owner index key⟩

theorem step_latest (gossip : Gossip Node Key Value) (op : Op Node Key Value) (owner : Node) :
    gossip.latest owner ≤ (gossip.step op).latest owner ∧
      ∀ key value, op = .set owner key value → (gossip.step op).latest owner = gossip.latest owner + 1 := by
  cases op with
  | set node one value =>
      rw [step]
      by_cases same : owner = node
      · subst same
        simp
      · refine ⟨?_, ?_⟩
        · simp [Function.update_of_ne same]
        · rintro key other isSet
          cases isSet
          exact absurd rfl same
  | send node source one =>
      rw [step]
      refine ⟨?_, nofun⟩
      split
      · exact Nat.le_refl _
      · exact Nat.le_refl _
  | receive node index =>
      rw [step]
      refine ⟨?_, nofun⟩
      split
      · exact Nat.le_refl _
      · split
        · exact Nat.le_refl _
        · exact Nat.le_refl _

theorem step_sound (gossip : Gossip Node Key Value) (op : Op Node Key Value) (sound : gossip.Sound) :
    (gossip.step op).Sound where
  ahead := by
    intro owner key entry holds
    have before := step_holds gossip op owner key entry holds
    rcases step_own gossip sound op owner key with ⟨value, isSet, own⟩ | ⟨notSet, same⟩
    · refine ⟨_, own, ?_⟩
      rcases before with earlier | ⟨_, last⟩
      · exact Nat.le_succ_of_le (sound.bounded owner key entry earlier)
      · exact Nat.le_of_eq last
    · rcases before with earlier | ⟨isSet, _⟩
      · obtain ⟨own, copied, ahead⟩ := sound.ahead owner key entry earlier
        exact ⟨own, same.trans copied, ahead⟩
      · exact absurd isSet (notSet _)
  bounded := by
    intro owner key entry holds
    obtain ⟨grows, sets⟩ := step_latest gossip op owner
    rcases step_holds gossip op owner key entry holds with earlier | ⟨isSet, last⟩
    · exact Nat.le_trans (sound.bounded owner key entry earlier) grows
    · rw [last, sets key entry.value isSet]

theorem run_sound (ops : List (Op Node Key Value)) : (Machine.run step start ops).Sound :=
  Machine.invariant_of_run step_sound _ ops start_sound

-- A copy stays as it is or moves to a newer version, one that was under way or is set.
theorem step_moves (gossip : Gossip Node Key Value) (sound : gossip.Sound) (op : Op Node Key Value) (node owner : Node)
    (key : Key) (entry : Versioned Value) (copied : gossip.copy node owner key = some entry) :
    (gossip.step op).copy node owner key = some entry ∨
      ∃ next, (gossip.step op).copy node owner key = some next ∧ entry.version < next.version ∧
        (gossip.Holds owner key next ∨ node = owner ∧ op = .set owner key next.value) := by
  cases op with
  | set other one value =>
      rw [copy_set]
      split
      · rename_i here
        obtain ⟨rfl, rfl, rfl⟩ := here
        have bounded := sound.bounded _ _ entry (.inl ⟨_, copied⟩)
        exact .inr ⟨_, rfl, Nat.lt_succ_of_le bounded, .inr ⟨rfl, rfl⟩⟩
      · exact .inl copied
  | send other source one =>
      rw [step]
      split
      · exact .inl copied
      · exact .inl copied
  | receive other index =>
      rw [step]
      split
      · exact .inl copied
      · rename_i packet found
        split
        · rename_i newer
          rw [copy_put]
          split
          · rename_i here
            obtain ⟨rfl, rfl, rfl⟩ := here
            rw [copied, isNewer] at newer
            exact .inr ⟨_, rfl, of_decide_eq_true newer, .inl (.inr (List.mem_of_getElem? found))⟩
          · exact .inl copied
        · exact .inl copied

-- A copy that is as new as its owner's own will be at the end stays so to the end.
theorem run_stays (gossip : Gossip Node Key Value) (sound : gossip.Sound) (ops : List (Op Node Key Value))
    (node owner : Node) (key : Key) (entry : Versioned Value) (copied : gossip.copy node owner key = some entry)
    (final : (Machine.run step gossip ops).copy owner owner key = some entry) :
    (Machine.run step gossip ops).copy node owner key = some entry := by
  have newer : ∀ (ops : List (Op Node Key Value)) (gossip : Gossip Node Key Value), gossip.Sound → ∀ held,
      gossip.copy node owner key = some held → ∃ next, (Machine.run step gossip ops).copy node owner key = some next ∧
        (next = held ∨ held.version < next.version) := by
    intro ops
    induction ops with
    | nil => exact fun _ _ held copied => ⟨held, copied, .inl rfl⟩
    | cons op ops ih =>
        intro gossip sound held copied
        have after := step_sound gossip op sound
        rcases step_moves gossip sound op node owner key held copied with same | ⟨next, moved, later, _⟩
        · exact ih _ after held same
        · obtain ⟨last, found, from_next⟩ := ih _ after next moved
          refine ⟨last, found, .inr ?_⟩
          rcases from_next with rfl | further
          · exact later
          · exact Nat.lt_trans later further
  obtain ⟨next, found, isNext⟩ := newer ops gossip sound entry copied
  rcases isNext with rfl | later
  · exact found
  · have ended := Machine.invariant_of_run step_sound gossip ops sound
    obtain ⟨own, isOwn, ahead⟩ := ended.ahead owner key next (.inl ⟨node, found⟩)
    rw [final] at isOwn
    cases isOwn
    exact absurd ahead (Nat.not_le.mpr later)

-- Stamps that rise with every set of the key by its owner rise with the version
-- wherever the key is held.
section Stamps

variable (stamp : Value → Nat) (key : Key)

def Rises (gossip : Gossip Node Key Value) : Op Node Key Value → Prop
  | .set node one value =>
      one = key → ∀ own, gossip.copy node node key = some own → stamp own.value ≤ stamp value
  | .send _ _ _ | .receive _ _ => True

def InOrder (gossip : Gossip Node Key Value) : Prop :=
  ∀ owner first second, gossip.Holds owner key first → gossip.Holds owner key second →
    first.version ≤ second.version → stamp first.value ≤ stamp second.value

omit [DecidableEq Node] in
theorem start_in_order : InOrder stamp key (start : Gossip Node Key Value) :=
  fun owner first _ holds _ _ => absurd holds (start_holds owner key first)

omit [DecidableEq Node] in
-- What is held is no later than what is set now.
theorem held_rises (gossip : Gossip Node Key Value) (sound : gossip.Sound) (inOrder : InOrder stamp key gossip)
    (owner : Node) (value : Value) (rises : Rises stamp key gossip (.set owner key value)) (entry : Versioned Value)
    (holds : gossip.Holds owner key entry) : stamp entry.value ≤ stamp value := by
  obtain ⟨own, copied, ahead⟩ := sound.ahead owner key entry holds
  exact Nat.le_trans (inOrder owner entry own holds (.inl ⟨owner, copied⟩) ahead) (rises rfl own copied)

theorem step_in_order (gossip : Gossip Node Key Value) (op : Op Node Key Value) (sound : gossip.Sound)
    (inOrder : InOrder stamp key gossip) (rises : Rises stamp key gossip op) : InOrder stamp key (gossip.step op) := by
  intro owner first second holdsFirst holdsSecond older
  rcases step_holds gossip op owner key first holdsFirst with isOld | ⟨isSet, last⟩
  · rcases step_holds gossip op owner key second holdsSecond with isOldToo | ⟨isSet, _⟩
    · exact inOrder owner first second isOld isOldToo older
    · rw [isSet] at rises
      exact held_rises stamp key gossip sound inOrder owner second.value rises first isOld
  · rcases step_holds gossip op owner key second holdsSecond with isOld | ⟨isSetToo, _⟩
    · have bounded := sound.bounded owner key second isOld
      omega
    · obtain ⟨_, _, same⟩ := Op.set.inj (isSet.symm.trans isSetToo)
      exact Nat.le_of_eq (congrArg stamp same)

theorem step_rises (gossip : Gossip Node Key Value) (op : Op Node Key Value) (sound : gossip.Sound)
    (inOrder : InOrder stamp key gossip) (rises : Rises stamp key gossip op) (node owner : Node)
    (entry : Versioned Value) (copied : gossip.copy node owner key = some entry) :
    ∃ next, (gossip.step op).copy node owner key = some next ∧ stamp entry.value ≤ stamp next.value := by
  rcases step_moves gossip sound op node owner key entry copied with same | ⟨next, moved, later, held | ⟨rfl, isSet⟩⟩
  · exact ⟨entry, same, Nat.le_refl _⟩
  · exact ⟨next, moved, inOrder owner entry next (.inl ⟨node, copied⟩) held (Nat.le_of_lt later)⟩
  · rw [isSet] at rises
    exact ⟨next, moved, held_rises stamp key gossip sound inOrder node next.value rises entry (.inl ⟨node, copied⟩)⟩

-- Along a run no copy of the key goes back.
theorem run_rises (gossip : Gossip Node Key Value) (ops : List (Op Node Key Value)) (sound : gossip.Sound)
    (inOrder : InOrder stamp key gossip) (rises : Machine.AllSteps (Rises stamp key) step gossip ops) (node owner : Node)
    (entry : Versioned Value) (copied : gossip.copy node owner key = some entry) :
    ∃ next, (Machine.run step gossip ops).copy node owner key = some next ∧ stamp entry.value ≤ stamp next.value := by
  induction ops generalizing gossip entry with
  | nil => exact ⟨entry, copied, Nat.le_refl _⟩
  | cons op ops ih =>
      obtain ⟨next, moved, above⟩ := step_rises stamp key gossip op sound inOrder rises.1 node owner entry copied
      obtain ⟨last, found, further⟩ := ih (gossip.step op) (step_sound gossip op sound)
        (step_in_order stamp key gossip op sound inOrder rises.1) rises.2 next moved
      exact ⟨last, found, Nat.le_trans above further⟩

theorem run_in_order (ops : List (Op Node Key Value)) (rises : Machine.AllSteps (Rises stamp key) step start ops) :
    InOrder stamp key (Machine.run step start ops) := by
  have both : ∀ (gossip : Gossip Node Key Value) (op : Op Node Key Value), gossip.Sound ∧ InOrder stamp key gossip →
      Rises stamp key gossip op → (gossip.step op).Sound ∧ InOrder stamp key (gossip.step op) := by
    intro gossip op ⟨sound, inOrder⟩ rises
    exact ⟨step_sound gossip op sound, step_in_order stamp key gossip op sound inOrder rises⟩
  exact (Machine.invariant_of_guarded both start ops ⟨start_sound, start_in_order stamp key⟩ rises).2

end Stamps

end Gossip
