import Mathlib.Algebra.BigOperators.Group.List.Basic
import Mathlib.Algebra.Order.Ring.Nat
import Lvqr.Wasm.Bridge

set_option autoImplicit false

-- What the counters of the slots and of the broadcasts come to, with the fragments that
-- are under way.
namespace Lvqr.Wasm

def Phase.isAt (place : Nat) (entered : Bool) : Phase → Bool
  | .applying passage => passage.place = place && passage.entered == entered
  | .reading | .settled _ | .counted _ => false

def Phase.isSettled : Phase → Bool
  | .settled _ => true
  | .reading | .applying _ | .counted _ => false

def Phase.isUncounted (kept : Bool) : Phase → Bool
  | .settled one | .counted one => one == kept
  | .reading | .applying _ => false

theorem count_modify {Item : Type} (test : Item → Bool) (items : List Item) (index : Nat) (item : Item)
    (change : Item → Item) (found : items[index]? = some item) :
    (items.modify index change).countP test + (if test item then 1 else 0) =
      items.countP test + (if test (change item) then 1 else 0) := by
  induction items generalizing index with
  | nil => cases found
  | cons first items ih =>
      cases index with
      | zero =>
          obtain rfl : first = item := Option.some.inj found
          rw [List.modify_zero_cons, List.countP_cons, List.countP_cons]
          omega
      | succ index =>
          rw [List.modify_succ_cons, List.countP_cons, List.countP_cons]
          have := ih index found
          omega

namespace Bridge

def among (bridge : Bridge) (test : Phase → Bool) : Nat := bridge.taps.countP fun tap => test tap.phase

-- How many fragments got as far as a place of the chain.
def reached (bridge : Bridge) : Nat → Nat
  | 0 => bridge.begun
  | place + 1 => (bridge.slots[place]?).elim 0 Slot.kept

def keptVerdicts (bridge : Bridge) : Nat := bridge.verdicts.countP fun verdict => verdict.out.isSome

-- What comes to a slot is seen by it or waits before it, what it has seen is judged or
-- still in it, and what is kept by the last has come out of the chain.
structure Flows (bridge : Bridge) : Prop where
  arrived : ∀ place slot, bridge.slots[place]? = some slot →
    bridge.reached place = slot.seen + bridge.among (Phase.isAt place false)
  judged : ∀ place slot, bridge.slots[place]? = some slot →
    slot.seen = slot.kept + slot.dropped + bridge.among (Phase.isAt place true)
  past : bridge.reached bridge.slots.length = bridge.keptVerdicts + bridge.among (Phase.isAt bridge.slots.length false)
  begun : bridge.begun = bridge.verdicts.length + bridge.among Phase.isApplying
  single : bridge.among Phase.isApplying ≤ 1

section Steps

variable (bridge : Bridge)

theorem among_tap (test : Phase → Bool) (index : Nat) (tap : Tap) (change : Tap → Tap)
    (found : bridge.taps[index]? = some tap) :
    (bridge.withTap index change).among test + (if test tap.phase then 1 else 0) =
      bridge.among test + (if test (change tap).phase then 1 else 0) :=
  count_modify (fun tap : Tap => test tap.phase) bridge.taps index tap change found

theorem among_phase (test : Phase → Bool) (index : Nat) (tap : Tap) (phase : Phase)
    (found : bridge.taps[index]? = some tap) :
    (bridge.withPhase index phase).among test + (if test tap.phase then 1 else 0) =
      bridge.among test + (if test phase then 1 else 0) :=
  among_tap bridge test index tap _ found

theorem slots_changed (place : Nat) (change : Slot → Slot) (other : Nat) :
    (bridge.withSlot place change).slots[other]? =
      (bridge.slots[other]?).map fun slot => if place = other then change slot else slot :=
  List.getElem?_modify change place bridge.slots other

theorem slot_changed (place : Nat) (change : Slot → Slot) (other : Nat) (slot : Slot)
    (found : (bridge.withSlot place change).slots[other]? = some slot) :
    ∃ before, bridge.slots[other]? = some before ∧ slot = if place = other then change before else before := by
  rw [slots_changed] at found
  obtain ⟨before, isBefore, rfl⟩ := Option.map_eq_some_iff.mp found
  exact ⟨before, isBefore, rfl⟩

theorem reached_same (place : Nat) (change : Slot → Slot) (same : ∀ slot, (change slot).kept = slot.kept) (other : Nat) :
    (bridge.withSlot place change).reached other = bridge.reached other := by
  cases other with
  | zero => rfl
  | succ other =>
      rw [reached, reached, slots_changed]
      cases bridge.slots[other]? with
      | none => rfl
      | some slot =>
          rw [Option.map_some, Option.elim_some, Option.elim_some]
          split
          · exact same slot
          · rfl

theorem reached_kept (place : Nat) (slot : Slot) (found : bridge.slots[place]? = some slot) (other : Nat) :
    (bridge.withSlot place fun slot => { slot with kept := slot.kept + 1 }).reached other =
      bridge.reached other + (if other = place + 1 then 1 else 0) := by
  cases other with
  | zero => rfl
  | succ other =>
      rw [reached, reached, slots_changed]
      by_cases same : place = other
      · subst same
        rw [found, Option.map_some, Option.elim_some, Option.elim_some, if_pos rfl, if_pos rfl]
      · rw [if_neg fun next => same (Nat.succ.inj next).symm]
        simp only [if_neg same, Option.map_id', Nat.add_zero]

@[simp] theorem among_with_slot (place : Nat) (change : Slot → Slot) (test : Phase → Bool) :
    (bridge.withSlot place change).among test = bridge.among test := rfl

@[simp] theorem among_judged (verdict : Verdict) (test : Phase → Bool) :
    (bridge.judged verdict).among test = bridge.among test := rfl

@[simp] theorem reached_judged (verdict : Verdict) (place : Nat) :
    (bridge.judged verdict).reached place = bridge.reached place := rfl

@[simp] theorem reached_with_phase (index : Nat) (phase : Phase) (place : Nat) :
    (bridge.withPhase index phase).reached place = bridge.reached place := rfl

@[simp] theorem length_with_phase (index : Nat) (phase : Phase) :
    (bridge.withPhase index phase).slots.length = bridge.slots.length := rfl

@[simp] theorem length_with_slot (place : Nat) (change : Slot → Slot) :
    (bridge.withSlot place change).slots.length = bridge.slots.length :=
  List.length_modify _ _ _

theorem kept_judged (verdict : Verdict) : (bridge.judged verdict).keptVerdicts =
    bridge.keptVerdicts + (if verdict.out.isSome then 1 else 0) := by
  rw [keptVerdicts, judged, List.countP_append, List.countP_singleton]
  rfl

theorem judged_length (verdict : Verdict) : (bridge.judged verdict).verdicts.length = bridge.verdicts.length + 1 :=
  List.length_append

variable {bridge}

-- An apply goes into a slot.
theorem flows_enter (flows : bridge.Flows) (index : Nat) (tap : Tap) (passage : Passage) (slot : Slot)
    (found : bridge.taps[index]? = some tap) (isPhase : tap.phase = .applying passage)
    (isSlot : bridge.slots[passage.place]? = some slot) (notEntered : passage.entered = false) :
    ((bridge.withSlot passage.place fun slot => { slot with seen := slot.seen + 1 }).withPhase index
      (.applying { passage with entered := true })).Flows := by
  have phases := fun test => among_phase
    (bridge.withSlot passage.place fun slot => { slot with seen := slot.seen + 1 }) test index tap
    (.applying { passage with entered := true }) found
  have same := reached_same bridge passage.place (fun slot => { slot with seen := slot.seen + 1 }) fun _ => rfl
  have within := (List.getElem?_eq_some_iff.mp isSlot).1
  have applying := phases Phase.isApplying
  simp only [isPhase, Phase.isApplying, among_with_slot, Nat.add_right_cancel_iff] at applying
  refine ⟨?_, ?_, ?_, by rw [applying]; exact flows.begun, by rw [applying]; exact flows.single⟩
  · intro other after isAfter
    obtain ⟨before, isBefore, rfl⟩ := slot_changed bridge passage.place _ other after isAfter
    have arrived := flows.arrived other before isBefore
    have waiting := phases (Phase.isAt other false)
    rw [reached_with_phase, same]
    by_cases here : passage.place = other
    · simp [isPhase, Phase.isAt, notEntered, here] at waiting ⊢
      omega
    · simp [isPhase, Phase.isAt, here] at waiting ⊢
      omega
  · intro other after isAfter
    obtain ⟨before, isBefore, rfl⟩ := slot_changed bridge passage.place _ other after isAfter
    have judged := flows.judged other before isBefore
    have inside := phases (Phase.isAt other true)
    by_cases here : passage.place = other
    · simp [isPhase, Phase.isAt, notEntered, here] at inside ⊢
      omega
    · simp [isPhase, Phase.isAt, here] at inside ⊢
      omega
  · have waiting := phases (Phase.isAt bridge.slots.length false)
    simp [isPhase, Phase.isAt, Nat.ne_of_lt within] at waiting
    rw [length_with_phase, length_with_slot, reached_with_phase, same, flows.past, waiting]
    rfl

-- The slot it is in keeps it.
theorem flows_keep (flows : bridge.Flows) (index : Nat) (tap : Tap) (passage next : Passage) (slot : Slot)
    (found : bridge.taps[index]? = some tap) (isPhase : tap.phase = .applying passage)
    (isSlot : bridge.slots[passage.place]? = some slot) (entered : passage.entered = true)
    (isNext : next.place = passage.place + 1 ∧ next.entered = false) :
    ((bridge.withSlot passage.place fun slot => { slot with kept := slot.kept + 1 }).withPhase index
      (.applying next)).Flows := by
  have phases := fun test => among_phase
    (bridge.withSlot passage.place fun slot => { slot with kept := slot.kept + 1 }) test index tap (.applying next) found
  have more := reached_kept bridge passage.place slot isSlot
  have applying := phases Phase.isApplying
  simp only [isPhase, Phase.isApplying, among_with_slot, Nat.add_right_cancel_iff] at applying
  refine ⟨?_, ?_, ?_, by rw [applying]; exact flows.begun, by rw [applying]; exact flows.single⟩
  · intro other after isAfter
    obtain ⟨before, isBefore, rfl⟩ := slot_changed bridge passage.place _ other after isAfter
    have arrived := flows.arrived other before isBefore
    have waiting := phases (Phase.isAt other false)
    simp [isPhase, Phase.isAt, entered, isNext] at waiting
    rw [reached_with_phase, more, waiting, arrived]
    have seen : (if passage.place = other then { before with kept := before.kept + 1 } else before).seen = before.seen := by
      split
      · rfl
      · rfl
    rw [seen]
    by_cases isThere : other = passage.place + 1
    · rw [if_pos isThere, if_pos isThere.symm]
      omega
    · rw [if_neg isThere, if_neg fun same => isThere same.symm]
      omega
  · intro other after isAfter
    obtain ⟨before, isBefore, rfl⟩ := slot_changed bridge passage.place _ other after isAfter
    have judged := flows.judged other before isBefore
    have inside := phases (Phase.isAt other true)
    by_cases here : passage.place = other
    · simp [isPhase, Phase.isAt, entered, isNext, here] at inside ⊢
      omega
    · simp [isPhase, Phase.isAt, isNext, here] at inside ⊢
      omega
  · have waiting := phases (Phase.isAt bridge.slots.length false)
    simp [isPhase, Phase.isAt, entered, isNext] at waiting
    rw [length_with_phase, length_with_slot, reached_with_phase, more, flows.past, waiting]
    have turned : (if bridge.slots.length = passage.place + 1 then 1 else 0) =
        if passage.place + 1 = bridge.slots.length then 1 else 0 := if_congr eq_comm rfl rfl
    rw [turned]
    exact Nat.add_assoc _ _ _

-- The slot it is in drops it.
theorem flows_drop (flows : bridge.Flows) (index : Nat) (tap : Tap) (passage : Passage) (verdict : Verdict)
    (found : bridge.taps[index]? = some tap) (isPhase : tap.phase = .applying passage)
    (entered : passage.entered = true) (isDrop : verdict.out = none) :
    (((bridge.withSlot passage.place fun slot => { slot with dropped := slot.dropped + 1 }).judged verdict).withPhase index
      (.settled false)).Flows := by
  have phases := fun test => among_phase
    ((bridge.withSlot passage.place fun slot => { slot with dropped := slot.dropped + 1 }).judged verdict) test index tap
    (.settled false) found
  have same := reached_same bridge passage.place (fun slot => { slot with dropped := slot.dropped + 1 }) fun _ => rfl
  have applying := phases Phase.isApplying
  simp [isPhase, Phase.isApplying] at applying
  have begun := flows.begun
  have single := flows.single
  refine ⟨?_, ?_, ?_, ?_, by omega⟩
  · intro other after isAfter
    obtain ⟨before, isBefore, rfl⟩ := slot_changed bridge passage.place _ other after isAfter
    have arrived := flows.arrived other before isBefore
    have waiting := phases (Phase.isAt other false)
    simp [isPhase, Phase.isAt, entered] at waiting
    rw [reached_with_phase, reached_judged, same, waiting, arrived]
    split
    · rfl
    · rfl
  · intro other after isAfter
    obtain ⟨before, isBefore, rfl⟩ := slot_changed bridge passage.place _ other after isAfter
    have judged := flows.judged other before isBefore
    have inside := phases (Phase.isAt other true)
    by_cases here : passage.place = other
    · simp [isPhase, Phase.isAt, entered, here] at inside ⊢
      omega
    · simp [isPhase, Phase.isAt, here] at inside ⊢
      omega
  · have waiting := phases (Phase.isAt bridge.slots.length false)
    simp [isPhase, Phase.isAt, entered] at waiting
    have kept := kept_judged (bridge.withSlot passage.place fun slot => { slot with dropped := slot.dropped + 1 }) verdict
    rw [isDrop] at kept
    have length : ((bridge.withSlot passage.place fun slot => { slot with dropped := slot.dropped + 1 }).judged
      verdict).slots.length = bridge.slots.length := length_with_slot bridge _ _
    rw [length_with_phase, length, reached_with_phase, reached_judged, same, flows.past, waiting]
    exact congrArg (· + _) kept.symm
  · have longer := judged_length bridge verdict
    show bridge.begun = (bridge.judged verdict).verdicts.length + _
    omega

-- It is past the last slot.
theorem flows_leave (flows : bridge.Flows) (index : Nat) (tap : Tap) (passage : Passage) (verdict : Verdict)
    (found : bridge.taps[index]? = some tap) (isPhase : tap.phase = .applying passage)
    (isPast : passage.place = bridge.slots.length) (notEntered : passage.entered = false)
    (isKept : verdict.out.isSome = true) : ((bridge.judged verdict).withPhase index (.settled true)).Flows := by
  have phases := fun test => among_phase (bridge.judged verdict) test index tap (.settled true) found
  have applying := phases Phase.isApplying
  simp [isPhase, Phase.isApplying] at applying
  have begun := flows.begun
  have single := flows.single
  refine ⟨?_, ?_, ?_, ?_, by omega⟩
  · intro other slot isSlot
    have within := (List.getElem?_eq_some_iff.mp isSlot).1
    have elsewhere : passage.place ≠ other := isPast ▸ (Nat.ne_of_lt within).symm
    have waiting := phases (Phase.isAt other false)
    simp [isPhase, Phase.isAt, elsewhere] at waiting
    rw [waiting]
    exact flows.arrived other slot isSlot
  · intro other slot isSlot
    have inside := phases (Phase.isAt other true)
    simp [isPhase, Phase.isAt, notEntered] at inside
    rw [inside]
    exact flows.judged other slot isSlot
  · have waiting := phases (Phase.isAt bridge.slots.length false)
    simp [isPhase, Phase.isAt, notEntered, isPast] at waiting
    have past := flows.past
    have kept := kept_judged bridge verdict
    rw [if_pos isKept] at kept
    show bridge.reached bridge.slots.length = (bridge.judged verdict).keptVerdicts + _
    rw [length_with_phase]
    show bridge.reached bridge.slots.length = (bridge.judged verdict).keptVerdicts +
      ((bridge.judged verdict).withPhase index (.settled true)).among (Phase.isAt bridge.slots.length false)
    omega
  · have longer := judged_length bridge verdict
    show bridge.begun = (bridge.judged verdict).verdicts.length + _
    omega

theorem reached_begun (index : Nat) (change : Tap → Tap) (place : Nat) :
    ({ bridge.withTap index change with begun := bridge.begun + 1 } : Bridge).reached place =
      bridge.reached place + (if place = 0 then 1 else 0) := by
  cases place with
  | zero => rfl
  | succ place => rfl

-- A tap takes a fragment and the lock.
theorem flows_begin (flows : bridge.Flows) (index : Nat) (tap : Tap) (rest : List Media.Fragment) (passage : Passage)
    (found : bridge.taps[index]? = some tap) (isPhase : tap.phase = .reading) (free : bridge.locked = false)
    (isFront : passage.place = 0 ∧ passage.entered = false) :
    Flows { bridge.withTap index fun tap => ⟨tap.key, rest, .applying passage⟩ with begun := bridge.begun + 1 } := by
  have phases := fun test => among_tap bridge test index tap (fun tap => ⟨tap.key, rest, .applying passage⟩) found
  have none : bridge.among Phase.isApplying = 0 :=
    List.countP_eq_zero.mpr fun one member => Bool.not_eq_true _ ▸ List.any_eq_false.mp free one member
  have applying := phases Phase.isApplying
  simp [isPhase, Phase.isApplying] at applying
  have begun := flows.begun
  refine ⟨?_, ?_, ?_, ?_, ?_⟩
  · intro other slot isSlot
    have arrived := flows.arrived other slot isSlot
    have waiting := phases (Phase.isAt other false)
    rw [reached_begun]
    show _ = slot.seen + (bridge.withTap index _).among (Phase.isAt other false)
    by_cases first : other = 0
    · simp [isPhase, Phase.isAt, isFront, first] at waiting arrived ⊢
      omega
    · simp [isPhase, Phase.isAt, isFront, Ne.symm first] at waiting
      rw [waiting, if_neg first]
      exact arrived
  · intro other slot isSlot
    have inside := phases (Phase.isAt other true)
    simp [isPhase, Phase.isAt, isFront] at inside
    show slot.seen = slot.kept + slot.dropped + (bridge.withTap index _).among (Phase.isAt other true)
    rw [inside]
    exact flows.judged other slot isSlot
  · have waiting := phases (Phase.isAt bridge.slots.length false)
    have past := flows.past
    rw [reached_begun]
    show _ + _ = bridge.keptVerdicts + (bridge.withTap index _).among (Phase.isAt bridge.slots.length false)
    show bridge.reached bridge.slots.length + (if bridge.slots.length = 0 then 1 else 0) = _
    by_cases empty : bridge.slots.length = 0
    · simp [isPhase, Phase.isAt, isFront, empty] at waiting past ⊢
      omega
    · simp [isPhase, Phase.isAt, isFront, Ne.symm empty] at waiting
      rw [waiting, if_neg empty]
      exact past
  · show bridge.begun + 1 = bridge.verdicts.length + (bridge.withTap index _).among Phase.isApplying
    omega
  · show (bridge.withTap index _).among Phase.isApplying ≤ 1
    omega

theorem at_idle (place : Nat) (entered : Bool) (phase : Phase) (idle : phase.isApplying = false) :
    Phase.isAt place entered phase = false := by
  cases phase with
  | applying passage => cases idle
  | reading => rfl
  | settled kept => rfl
  | counted kept => rfl

-- Nothing in the chain moves.
theorem Flows.quiet (flows : bridge.Flows) (after : Bridge) (slots : after.slots = bridge.slots)
    (begun : after.begun = bridge.begun) (verdicts : after.verdicts = bridge.verdicts)
    (same : ∀ test : Phase → Bool, (∀ phase, phase.isApplying = false → test phase = false) →
      after.among test = bridge.among test) : after.Flows := by
  have reached : after.reached = bridge.reached := by
    funext place
    cases place with
    | zero => exact begun
    | succ place => rw [Bridge.reached, Bridge.reached, slots]
  have places := fun place entered => same (Phase.isAt place entered) (at_idle place entered)
  have applying := same Phase.isApplying fun _ idle => idle
  refine ⟨?_, ?_, ?_, ?_, applying ▸ flows.single⟩
  · rw [slots, reached]
    exact fun place slot isSlot => places place false ▸ flows.arrived place slot isSlot
  · rw [slots]
    exact fun place slot isSlot => places place true ▸ flows.judged place slot isSlot
  · rw [slots, reached, places, keptVerdicts, verdicts]
    exact flows.past
  · rw [begun, verdicts, applying]
    exact flows.begun

theorem Flows.phase (flows : bridge.Flows) (index : Nat) (tap : Tap) (phase : Phase)
    (found : bridge.taps[index]? = some tap) (before : tap.phase.isApplying = false) (idle : phase.isApplying = false) :
    (bridge.withPhase index phase).Flows := by
  refine flows.quiet _ rfl rfl rfl fun test silent => ?_
  have moved := among_phase bridge test index tap phase found
  rw [silent _ before, silent _ idle] at moved
  exact Nat.add_right_cancel moved

theorem Flows.replace (flows : bridge.Flows) (place : Nat) (filter : WasmFilter) :
    (bridge.withSlot place fun slot => { slot with filter := filter }).Flows := by
  have same := reached_same bridge place (fun slot => { slot with filter := filter }) fun _ => rfl
  refine ⟨?_, ?_, ?_, flows.begun, flows.single⟩
  · intro other after isAfter
    obtain ⟨before, isBefore, rfl⟩ := slot_changed bridge place _ other after isAfter
    rw [same, flows.arrived other before isBefore]
    split
    · rfl
    · rfl
  · intro other after isAfter
    obtain ⟨before, isBefore, rfl⟩ := slot_changed bridge place _ other after isAfter
    have judged := flows.judged other before isBefore
    split
    · exact judged
    · exact judged
  · rw [length_with_slot, same]
    exact flows.past

theorem apply_turn_flows {filters : List WasmFilter} {ops : List BridgeOp} (flows : bridge.Flows)
    (sound : bridge.Sound filters ops) (index : Nat) (tap : Tap) (passage : Passage)
    (found : bridge.taps[index]? = some tap) (isPhase : tap.phase = .applying passage) :
    (bridge.applyTurn index tap.key passage).Flows := by
  have passes := sound.taps tap (List.mem_of_getElem? found) passage isPhase
  rw [applyTurn]
  cases isSlot : bridge.slots[passage.place]? with
  | none =>
      have past := List.getElem?_eq_none_iff.mp isSlot
      have isPast : passage.place = bridge.slots.length := Nat.le_antisymm (sound.length ▸ passes.within) past
      have notEntered : passage.entered = false := by
        cases isEntered : passage.entered with
        | false => rfl
        | true =>
            have inside := passes.inside isEntered
            rw [← sound.length] at inside
            omega
      exact flows_leave flows index tap passage _ found isPhase isPast notEntered rfl
  | some slot =>
      dsimp only
      split
      · rename_i entered
        cases slot.filter.apply passage.fragment with
        | some out => exact flows_keep flows index tap passage _ slot found isPhase isSlot entered ⟨rfl, rfl⟩
        | none => exact flows_drop flows index tap passage _ found isPhase entered rfl
      · rename_i notEntered
        exact flows_enter flows index tap passage slot found isPhase isSlot (Bool.eq_false_of_not_eq_true notEntered)

theorem turn_flows {filters : List WasmFilter} {ops : List BridgeOp} (flows : bridge.Flows)
    (sound : bridge.Sound filters ops) (index : Nat) (tap : Tap) (found : bridge.taps[index]? = some tap) :
    (bridge.turn index tap).Flows := by
  rw [turn]
  cases isPhase : tap.phase with
  | reading =>
      dsimp only
      split
      · exact flows
      · split
        · exact flows
        · rename_i free
          exact flows_begin flows index tap _ _ found isPhase (Bool.eq_false_of_not_eq_true free) ⟨rfl, rfl⟩
  | applying passage => exact apply_turn_flows flows sound index tap passage found isPhase
  | settled kept =>
      have idle : tap.phase.isApplying = false := by rw [isPhase]; rfl
      have changed := flows.quiet (bridge.withStat tap.key fun stat => { stat with seen := stat.seen + 1 }) rfl rfl rfl
        fun _ _ => rfl
      exact changed.phase index tap _ found idle rfl
  | counted kept =>
      have idle : tap.phase.isApplying = false := by rw [isPhase]; rfl
      have changed := flows.quiet (bridge.withStat tap.key fun stat =>
        if kept then { stat with kept := stat.kept + 1 } else { stat with dropped := stat.dropped + 1 }) rfl rfl rfl
        fun _ _ => rfl
      exact changed.phase index tap _ found idle rfl

theorem step_flows {filters : List WasmFilter} {ops : List BridgeOp} (flows : bridge.Flows)
    (sound : bridge.Sound filters ops) (op : BridgeOp) : (bridge.step op).Flows := by
  cases op with
  | created key =>
      refine flows.quiet _ rfl rfl rfl fun test silent => ?_
      rw [step, among, List.countP_append, List.countP_singleton, silent _ rfl]
      rfl
  | delivered index fragment =>
      refine flows.quiet _ rfl rfl rfl fun test silent => ?_
      cases found : bridge.taps[index]? with
      | none =>
          have past := List.getElem?_eq_none_iff.mp found
          rw [step, among, withTap, List.modify_eq_self past]
          rfl
      | some tap => exact Nat.add_right_cancel (among_tap bridge test index tap _ found)
  | turn index =>
      rw [step]
      cases found : bridge.taps[index]? with
      | none => exact flows
      | some tap => exact turn_flows flows sound index tap found
  | replace place filter => exact flows.replace place filter

end Steps

theorem run_flows (filters : List WasmFilter) (ops : List BridgeOp) : (run filters ops).Flows := by
  induction ops using List.reverseRecOn with
  | nil =>
      have fresh : ∀ (place : Nat) (slot : Slot), (install filters).slots[place]? = some slot →
          slot.seen = 0 ∧ slot.kept = 0 ∧ slot.dropped = 0 := by
        intro place slot isSlot
        rw [install, List.getElem?_map] at isSlot
        obtain ⟨filter, _, rfl⟩ := Option.map_eq_some_iff.mp isSlot
        exact ⟨rfl, rfl, rfl⟩
      have nowhere : ∀ place, (install filters).reached place = 0 := by
        intro place
        cases place with
        | zero => rfl
        | succ place =>
            rw [reached]
            cases isSlot : (install filters).slots[place]? with
            | none => rfl
            | some slot => exact (fresh place slot isSlot).2.1
      refine ⟨?_, ?_, nowhere _, rfl, Nat.zero_le 1⟩
      · intro place slot isSlot
        rw [(fresh place slot isSlot).1]
        exact nowhere place
      · intro place slot isSlot
        obtain ⟨seen, kept, dropped⟩ := fresh place slot isSlot
        rw [seen, kept, dropped]
        rfl
  | append_singleton ops op ih =>
      have sound := run_sound filters ops
      rw [run] at ih sound ⊢
      rw [Machine.run_snoc]
      exact step_flows ih sound op

-- The broadcasts' own counters.
def amongOf (bridge : Bridge) (key : StatsKey) (test : Phase → Bool) : Nat :=
  bridge.taps.countP fun tap => tap.key = key && test tap.phase

def verdictsOf (bridge : Bridge) (key : StatsKey) (test : Bool → Bool) : Nat :=
  bridge.verdicts.countP fun verdict => verdict.key = key && test verdict.out.isSome

def countOf (bridge : Bridge) (key : StatsKey) (kept : Bool) : Nat :=
  if kept then (bridge.statOf key).kept else (bridge.statOf key).dropped

structure Tallies (bridge : Bridge) : Prop where
  seen : ∀ key, (bridge.statOf key).seen + bridge.amongOf key Phase.isSettled = bridge.verdictsOf key fun _ => true
  sorted : ∀ key kept, bridge.countOf key kept + bridge.amongOf key (Phase.isUncounted kept) = bridge.verdictsOf key (· == kept)
  taps : ∀ tap ∈ bridge.taps, tap.key ∈ bridge.stats
  verdicts : ∀ verdict ∈ bridge.verdicts, verdict.key ∈ bridge.stats

section Counts

variable (bridge : Bridge)

theorem among_of_tap (key : StatsKey) (test : Phase → Bool) (index : Nat) (tap : Tap) (change : Tap → Tap)
    (found : bridge.taps[index]? = some tap) :
    (bridge.withTap index change).amongOf key test + (if tap.key = key && test tap.phase then 1 else 0) =
      bridge.amongOf key test + (if (change tap).key = key && test (change tap).phase then 1 else 0) :=
  count_modify (fun tap : Tap => tap.key = key && test tap.phase) bridge.taps index tap change found

theorem stat_changed (key other : StatsKey) (change : FilterStats → FilterStats) :
    (bridge.withStat key change).statOf other = if other = key then change (bridge.statOf key) else bridge.statOf other := by
  rw [statOf, withStat, Table.lookup_insert_eq]
  split
  · rfl
  · rfl

@[simp] theorem stat_with_phase (index : Nat) (phase : Phase) (key : StatsKey) :
    (bridge.withPhase index phase).statOf key = bridge.statOf key := rfl

@[simp] theorem count_with_phase (index : Nat) (phase : Phase) (key : StatsKey) (kept : Bool) :
    (bridge.withPhase index phase).countOf key kept = bridge.countOf key kept := rfl

@[simp] theorem verdicts_with_phase (index : Nat) (phase : Phase) (key : StatsKey) (test : Bool → Bool) :
    (bridge.withPhase index phase).verdictsOf key test = bridge.verdictsOf key test := rfl

@[simp] theorem verdicts_with_stat (stat key : StatsKey) (change : FilterStats → FilterStats) (test : Bool → Bool) :
    (bridge.withStat stat change).verdictsOf key test = bridge.verdictsOf key test := rfl

@[simp] theorem stat_judged (verdict : Verdict) (key : StatsKey) :
    (bridge.judged verdict).statOf key = bridge.statOf key := rfl

@[simp] theorem count_judged (verdict : Verdict) (key : StatsKey) (kept : Bool) :
    (bridge.judged verdict).countOf key kept = bridge.countOf key kept := rfl

theorem verdicts_judged (verdict : Verdict) (key : StatsKey) (test : Bool → Bool) :
    (bridge.judged verdict).verdictsOf key test =
      bridge.verdictsOf key test + (if verdict.key = key && test verdict.out.isSome then 1 else 0) := by
  rw [verdictsOf, judged, List.countP_append, List.countP_singleton]
  rfl

variable {bridge}

theorem Tallies.quiet (tallies : bridge.Tallies) (after : Bridge) (stats : after.stats = bridge.stats)
    (verdicts : after.verdicts = bridge.verdicts) (taps : ∀ tap ∈ after.taps, ∃ before ∈ bridge.taps, before.key = tap.key)
    (same : ∀ key test, (∀ phase, phase = .reading ∨ phase.isApplying = true → test phase = false) →
      after.amongOf key test = bridge.amongOf key test) : after.Tallies := by
  have statOf : after.statOf = bridge.statOf := funext fun key => by rw [Bridge.statOf, Bridge.statOf, stats]
  have verdictsOf : after.verdictsOf = bridge.verdictsOf := by
    funext key test
    rw [Bridge.verdictsOf, Bridge.verdictsOf, verdicts]
  have settled : ∀ phase, phase = .reading ∨ phase.isApplying = true → Phase.isSettled phase = false := by
    intro phase quiet
    cases phase with
    | settled kept => simp [Phase.isApplying] at quiet
    | reading | applying _ | counted _ => rfl
  have uncounted : ∀ kept phase, phase = .reading ∨ phase.isApplying = true → Phase.isUncounted kept phase = false := by
    intro kept phase quiet
    cases phase with
    | settled kept => simp [Phase.isApplying] at quiet
    | counted kept => simp [Phase.isApplying] at quiet
    | reading | applying _ => rfl
  refine ⟨?_, ?_, ?_, ?_⟩
  · intro key
    rw [statOf, verdictsOf, same key _ settled]
    exact tallies.seen key
  · intro key kept
    rw [countOf, statOf, verdictsOf, same key _ (uncounted kept)]
    exact tallies.sorted key kept
  · intro tap member
    obtain ⟨before, isBefore, sameKey⟩ := taps tap member
    rw [stats, ← sameKey]
    exact tallies.taps before isBefore
  · rw [verdicts, stats]
    exact tallies.verdicts

theorem keys_kept (index : Nat) (change : Tap → Tap) (same : ∀ tap ∈ bridge.taps, (change tap).key = tap.key) :
    ∀ tap ∈ (bridge.withTap index change).taps, ∃ before ∈ bridge.taps, before.key = tap.key := by
  intro tap member
  obtain ⟨other, found⟩ := List.mem_iff_getElem?.mp member
  rw [withTap, List.getElem?_modify] at found
  obtain ⟨before, isBefore, rfl⟩ := Option.map_eq_some_iff.mp found
  have isTap := List.mem_of_getElem? isBefore
  refine ⟨before, isTap, ?_⟩
  split
  · exact (same before isTap).symm
  · rfl

def indicator (test : Bool) : Nat := if test then 1 else 0

theorem among_of_phase (key : StatsKey) (test : Phase → Bool) (index : Nat) (tap : Tap) (phase : Phase)
    (found : bridge.taps[index]? = some tap) :
    (bridge.withPhase index phase).amongOf key test + indicator (tap.key = key && test tap.phase) =
      bridge.amongOf key test + indicator (tap.key = key && test phase) :=
  among_of_tap bridge key test index tap (fun tap => { tap with phase := phase }) found

-- A tap moves on: what the counters gain is what it brings.
theorem Tallies.moved (tallies : bridge.Tallies) (index : Nat) (tap : Tap) (phase : Phase) (after : Bridge)
    (found : bridge.taps[index]? = some tap) (taps : after.taps = (bridge.withPhase index phase).taps)
    (stats : ∀ key, key ∈ bridge.stats → key ∈ after.stats)
    (verdicts : ∀ verdict ∈ after.verdicts, verdict ∈ bridge.verdicts ∨ verdict.key = tap.key)
    (seen : ∀ key, (after.statOf key).seen + indicator (tap.key = key && phase.isSettled) + bridge.verdictsOf key (fun _ => true) =
      (bridge.statOf key).seen + indicator (tap.key = key && tap.phase.isSettled) + after.verdictsOf key (fun _ => true))
    (sorted : ∀ key kept,
      after.countOf key kept + indicator (tap.key = key && phase.isUncounted kept) + bridge.verdictsOf key (· == kept) =
        bridge.countOf key kept + indicator (tap.key = key && tap.phase.isUncounted kept) + after.verdictsOf key (· == kept)) :
    after.Tallies := by
  have among : ∀ key test, after.amongOf key test = (bridge.withPhase index phase).amongOf key test := by
    intro key test
    rw [amongOf, amongOf, taps]
  have isTap := tallies.taps tap (List.mem_of_getElem? found)
  refine ⟨?_, ?_, ?_, ?_⟩
  · intro key
    have before := tallies.seen key
    have delta := seen key
    have phases := among_of_phase key Phase.isSettled index tap phase found
    rw [among]
    omega
  · intro key kept
    have before := tallies.sorted key kept
    have delta := sorted key kept
    have phases := among_of_phase key (Phase.isUncounted kept) index tap phase found
    rw [among]
    omega
  · intro other member
    rw [taps] at member
    obtain ⟨before, isBefore, sameKey⟩ := keys_kept index (fun tap => { tap with phase := phase }) (fun _ _ => rfl) other member
    exact sameKey ▸ stats _ (tallies.taps before isBefore)
  · intro verdict member
    rcases verdicts verdict member with before | isKey
    · exact stats _ (tallies.verdicts verdict before)
    · exact isKey ▸ stats _ isTap

-- An apply is over.
theorem Tallies.judged (tallies : bridge.Tallies) (index : Nat) (tap : Tap) (verdict : Verdict) (kept : Bool)
    (found : bridge.taps[index]? = some tap) (passing : tap.phase.isApplying = true) (isKey : verdict.key = tap.key)
    (isKept : verdict.out.isSome = kept) : ((bridge.judged verdict).withPhase index (.settled kept)).Tallies := by
  obtain ⟨passage, isPhase⟩ : ∃ passage, tap.phase = .applying passage := by
    cases isPhase : tap.phase with
    | applying passage => exact ⟨passage, rfl⟩
    | reading | settled _ | counted _ =>
        rw [isPhase] at passing
        cases passing
  refine tallies.moved index tap (.settled kept) _ found rfl (fun _ => id) ?_ ?_ ?_
  · intro other member
    rcases List.mem_append.mp member with before | last
    · exact .inl before
    · exact .inr (List.mem_singleton.mp last ▸ isKey)
  · intro key
    rw [verdicts_with_phase, verdicts_judged, stat_with_phase, stat_judged, isKey, isPhase, Phase.isSettled, Phase.isSettled,
      Bool.and_false, Bool.and_true, indicator, indicator, if_neg Bool.false_ne_true]
    omega
  · intro key other
    rw [verdicts_with_phase, verdicts_judged, count_with_phase, count_judged, isKey, isKept, isPhase, Phase.isUncounted,
      Phase.isUncounted, Bool.and_false, indicator, indicator, if_neg Bool.false_ne_true]
    omega

-- A settled verdict is counted as seen, and then as kept or dropped.
theorem Tallies.counted (tallies : bridge.Tallies) (index : Nat) (tap : Tap) (kept : Bool)
    (found : bridge.taps[index]? = some tap) (isPhase : tap.phase = .settled kept) :
    ((bridge.withStat tap.key fun stat => { stat with seen := stat.seen + 1 }).withPhase index (.counted kept)).Tallies := by
  have stats := fun other => stat_changed bridge tap.key other fun stat => { stat with seen := stat.seen + 1 }
  refine tallies.moved index tap (.counted kept) _ found rfl ?_ (fun _ => .inl) ?_ ?_
  · exact fun key member => (AList.mem_insert _).mpr (.inr member)
  · intro key
    rw [verdicts_with_phase, verdicts_with_stat, stat_with_phase, stats, isPhase]
    by_cases here : key = tap.key
    · simp [here, indicator, Phase.isSettled]
    · simp [here, Ne.symm here, indicator, Phase.isSettled]
  · intro key other
    rw [verdicts_with_phase, verdicts_with_stat, count_with_phase, countOf, stats, isPhase]
    by_cases here : key = tap.key
    · simp [here, Phase.isUncounted, countOf]
    · simp [here, Phase.isUncounted, countOf]

theorem Tallies.sortedOut (tallies : bridge.Tallies) (index : Nat) (tap : Tap) (kept : Bool)
    (found : bridge.taps[index]? = some tap) (isPhase : tap.phase = .counted kept) :
    ((bridge.withStat tap.key fun stat =>
      if kept then { stat with kept := stat.kept + 1 } else { stat with dropped := stat.dropped + 1 }).withPhase
        index .reading).Tallies := by
  have stats := fun other => stat_changed bridge tap.key other fun stat =>
    if kept then { stat with kept := stat.kept + 1 } else { stat with dropped := stat.dropped + 1 }
  refine tallies.moved index tap .reading _ found rfl ?_ (fun _ => .inl) ?_ ?_
  · exact fun key member => (AList.mem_insert _).mpr (.inr member)
  · intro key
    rw [verdicts_with_phase, verdicts_with_stat, stat_with_phase, stats, isPhase]
    by_cases here : key = tap.key
    · cases kept <;> simp [here, indicator, Phase.isSettled]
    · simp [here, indicator, Phase.isSettled]
  · intro key other
    rw [verdicts_with_phase, verdicts_with_stat, count_with_phase, countOf, stats, isPhase]
    by_cases here : key = tap.key
    · cases kept <;> cases other <;> simp [here, indicator, Phase.isUncounted, countOf]
    · simp [here, indicator, Ne.symm here, Phase.isUncounted, countOf]

-- An apply goes on.
theorem Tallies.passing (tallies : bridge.Tallies) (index : Nat) (tap : Tap) (passage next : Passage) (after : Bridge)
    (found : bridge.taps[index]? = some tap) (isPhase : tap.phase = .applying passage)
    (taps : after.taps = (bridge.withPhase index (.applying next)).taps) (stats : after.stats = bridge.stats)
    (verdicts : after.verdicts = bridge.verdicts) : after.Tallies := by
  have statOf : after.statOf = bridge.statOf := funext fun key => by rw [Bridge.statOf, Bridge.statOf, stats]
  have verdictsOf : after.verdictsOf = bridge.verdictsOf := by
    funext key test
    rw [Bridge.verdictsOf, Bridge.verdictsOf, verdicts]
  refine tallies.moved index tap (.applying next) after found taps (fun key member => stats ▸ member) ?_ ?_ ?_
  · exact fun verdict member => .inl (verdicts ▸ member)
  · intro key
    rw [statOf, verdictsOf, isPhase]
    rfl
  · intro key kept
    rw [countOf, countOf, statOf, verdictsOf, isPhase]
    rfl

theorem apply_turn_tallies (tallies : bridge.Tallies) (index : Nat) (tap : Tap) (passage : Passage)
    (found : bridge.taps[index]? = some tap) (isPhase : tap.phase = .applying passage) :
    (bridge.applyTurn index tap.key passage).Tallies := by
  have passing : tap.phase.isApplying = true := by rw [isPhase]; rfl
  rw [applyTurn]
  cases isSlot : bridge.slots[passage.place]? with
  | none => exact tallies.judged index tap _ true found passing rfl rfl
  | some slot =>
      dsimp only
      split
      · cases slot.filter.apply passage.fragment with
        | some out => exact tallies.passing index tap passage _ _ found isPhase rfl rfl rfl
        | none =>
            have changed : (bridge.withSlot passage.place fun slot => { slot with dropped := slot.dropped + 1 }).Tallies :=
              ⟨tallies.seen, tallies.sorted, tallies.taps, tallies.verdicts⟩
            exact changed.judged index tap _ false found passing rfl rfl
      · exact tallies.passing index tap passage _ _ found isPhase rfl rfl rfl

theorem turn_tallies (tallies : bridge.Tallies) (index : Nat) (tap : Tap) (found : bridge.taps[index]? = some tap) :
    (bridge.turn index tap).Tallies := by
  rw [turn]
  cases isPhase : tap.phase with
  | reading =>
      dsimp only
      split
      · exact tallies
      · rename_i fragment rest _
        split
        · exact tallies
        · let change : Tap → Tap := fun tap => ⟨tap.key, rest, .applying ⟨0, false, fragment, fragment, []⟩⟩
          refine tallies.quiet _ rfl rfl (keys_kept index change fun _ _ => rfl) fun key test silent => ?_
          have moved := among_of_tap bridge key test index tap change found
          rw [isPhase, silent .reading (.inl rfl), silent (change tap).phase (.inr rfl), Bool.and_false] at moved
          exact Nat.add_right_cancel moved
  | applying passage => exact apply_turn_tallies tallies index tap passage found isPhase
  | settled kept => exact tallies.counted index tap kept found isPhase
  | counted kept => exact tallies.sortedOut index tap kept found isPhase

theorem step_tallies (tallies : bridge.Tallies) (op : BridgeOp) : (bridge.step op).Tallies := by
  cases op with
  | created key =>
      have stats : (bridge.step (.created key)).statOf = bridge.statOf := by
        funext other
        have changed := stat_changed bridge key other id
        rw [ite_eq_right_iff.mpr fun same => by rw [id_eq, same]] at changed
        exact changed
      have among : ∀ other (test : Phase → Bool), test .reading = false →
          (bridge.step (.created key)).amongOf other test = bridge.amongOf other test := by
        intro other test silent
        rw [step, amongOf, List.countP_append, List.countP_singleton, silent, Bool.and_false]
        rfl
      refine ⟨?_, ?_, ?_, ?_⟩
      · intro other
        rw [stats, among other _ rfl]
        exact tallies.seen other
      · intro other kept
        rw [countOf, stats, among other _ rfl]
        exact tallies.sorted other kept
      · intro tap member
        rcases List.mem_append.mp member with before | last
        · exact (AList.mem_insert _).mpr (.inr (tallies.taps tap before))
        · exact (AList.mem_insert _).mpr (.inl (List.mem_singleton.mp last ▸ rfl))
      · exact fun verdict member => (AList.mem_insert _).mpr (.inr (tallies.verdicts verdict member))
  | delivered index fragment =>
      refine tallies.quiet _ rfl rfl (keys_kept index _ fun _ _ => rfl) fun key test _ => ?_
      cases found : bridge.taps[index]? with
      | none =>
          have past := List.getElem?_eq_none_iff.mp found
          rw [step, amongOf, withTap, List.modify_eq_self past]
          rfl
      | some tap => exact Nat.add_right_cancel (among_of_tap bridge key test index tap _ found)
  | turn index =>
      rw [step]
      cases found : bridge.taps[index]? with
      | none => exact tallies
      | some tap => exact turn_tallies tallies index tap found
  | replace place filter => exact ⟨tallies.seen, tallies.sorted, tallies.taps, tallies.verdicts⟩

end Counts

theorem run_tallies (filters : List WasmFilter) (ops : List BridgeOp) : (run filters ops).Tallies := by
  have keeps : ∀ (bridge : Bridge) (op : BridgeOp), bridge.Tallies → (bridge.step op).Tallies :=
    fun _ op tallies => step_tallies tallies op
  refine Machine.invariant_of_run keeps (install filters) ops ⟨?_, ?_, ?_, ?_⟩
  · exact fun _ => rfl
  · intro key kept
    cases kept with
    | true => rfl
    | false => rfl
  · exact fun _ member => (List.not_mem_nil member).elim
  · exact fun _ member => (List.not_mem_nil member).elim

-- What the admin route adds up over the broadcasts it tracks.
def tracked (bridge : Bridge) : List StatsKey := bridge.stats.keys

def total (bridge : Bridge) (count : FilterStats → Nat) : Nat :=
  (bridge.tracked.map fun key => count (bridge.statOf key)).sum

end Bridge

theorem sum_indicator {Key : Type} [DecidableEq Key] (keys : List Key) (value : Key) :
    (keys.map fun one => if value = one then 1 else 0).sum = keys.count value := by
  induction keys with
  | nil => rfl
  | cons first keys ih =>
      rw [List.map_cons, List.sum_cons, ih, List.count_cons, Nat.add_comm]
      by_cases same : value = first
      · simp [same]
      · simp [same, Ne.symm same]

-- Items counted key by key are all counted once.
theorem sum_by_key {Item Key : Type} [DecidableEq Key] (key : Item → Key) (test : Item → Bool) (keys : List Key)
    (items : List Item) (nodup : keys.Nodup) (known : ∀ item ∈ items, key item ∈ keys) :
    (keys.map fun one => items.countP fun item => key item = one && test item).sum = items.countP test := by
  induction items with
  | nil => simp
  | cons item items ih =>
      have rest := ih fun other member => known other (List.mem_cons_of_mem item member)
      have here : (keys.map fun one => if (key item = one && test item) = true then 1 else 0).sum =
          if test item then 1 else 0 := by
        cases test item with
        | false => simp
        | true =>
            have once := List.count_eq_one_of_mem nodup (known item List.mem_cons_self)
            simp only [Bool.and_true, decide_eq_true_eq, if_true]
            rw [sum_indicator, once]
      simp only [List.countP_cons, List.sum_map_add]
      rw [rest, here]

namespace Bridge

section Rest

variable {bridge : Bridge}

def AtRest (bridge : Bridge) : Prop := ∀ tap ∈ bridge.taps, tap.phase = .reading

theorem none_among (rest : bridge.AtRest) (test : Phase → Bool) (idle : test .reading = false) : bridge.among test = 0 := by
  refine List.countP_eq_zero.mpr fun tap member => ?_
  rw [rest tap member, idle]
  exact Bool.false_ne_true

theorem none_among_of (rest : bridge.AtRest) (key : StatsKey) (test : Phase → Bool) (idle : test .reading = false) :
    bridge.amongOf key test = 0 := by
  refine List.countP_eq_zero.mpr fun tap member => ?_
  rw [rest tap member, idle, Bool.and_false]
  exact Bool.false_ne_true

theorem slot_at_rest (flows : bridge.Flows) (rest : bridge.AtRest) (place : Nat) (slot : Slot)
    (found : bridge.slots[place]? = some slot) :
    bridge.reached place = slot.seen ∧ slot.seen = slot.kept + slot.dropped ∧ bridge.reached (place + 1) = slot.kept := by
  have arrived := flows.arrived place slot found
  have judged := flows.judged place slot found
  rw [none_among rest _ rfl] at arrived judged
  refine ⟨arrived, judged, ?_⟩
  rw [reached, found, Option.elim_some]

-- What is not kept to the end was dropped on the way.
theorem dropped_before (flows : bridge.Flows) (rest : bridge.AtRest) (place : Nat) (within : place ≤ bridge.slots.length) :
    bridge.begun = bridge.reached place + ((bridge.slots.take place).map Slot.dropped).sum := by
  induction place with
  | zero => rfl
  | succ place ih =>
      have isSlot := List.getElem?_eq_getElem (l := bridge.slots) (Nat.lt_of_succ_le within)
      obtain ⟨arrived, judged, next⟩ := slot_at_rest flows rest place _ isSlot
      have before := ih (Nat.le_of_succ_le within)
      rw [List.take_add_one, isSlot, List.map_append, List.sum_append, Option.toList_some, List.map_singleton,
        List.sum_singleton, next]
      omega

theorem verdicts_split (key : StatsKey) : bridge.verdictsOf key (fun _ => true) =
    bridge.verdictsOf key (· == true) + bridge.verdictsOf key (· == false) := by
  rw [verdictsOf, verdictsOf, verdictsOf]
  induction bridge.verdicts with
  | nil => rfl
  | cons verdict verdicts ih =>
      rw [List.countP_cons, List.countP_cons, List.countP_cons, ih]
      cases verdict.out.isSome with
      | true => simp; omega
      | false => simp; omega

theorem total_verdicts (tallies : bridge.Tallies) (test : Bool → Bool) :
    (bridge.tracked.map fun key => bridge.verdictsOf key test).sum =
      bridge.verdicts.countP fun verdict => test verdict.out.isSome :=
  sum_by_key Verdict.key (fun verdict => test verdict.out.isSome) bridge.tracked bridge.verdicts bridge.stats.keys_nodup
    tallies.verdicts

theorem stat_at_rest (tallies : bridge.Tallies) (rest : bridge.AtRest) (key : StatsKey) :
    (bridge.statOf key).seen = bridge.verdictsOf key (fun _ => true) ∧
      (bridge.statOf key).kept = bridge.verdictsOf key (· == true) ∧
      (bridge.statOf key).dropped = bridge.verdictsOf key (· == false) := by
  have seen := tallies.seen key
  have kept := tallies.sorted key true
  have dropped := tallies.sorted key false
  rw [none_among_of rest key _ rfl] at seen kept dropped
  exact ⟨seen, kept, dropped⟩

theorem total_seen (tallies : bridge.Tallies) (rest : bridge.AtRest) :
    bridge.total FilterStats.seen = bridge.verdicts.length := by
  have counted := total_verdicts tallies fun _ => true
  rw [List.countP_true] at counted
  rw [← counted, total]
  exact congrArg List.sum (List.map_congr_left fun key _ => (stat_at_rest tallies rest key).1)

theorem total_kept (tallies : bridge.Tallies) (rest : bridge.AtRest) :
    bridge.total FilterStats.kept = bridge.keptVerdicts := by
  have counted := total_verdicts tallies (· == true)
  simp only [beq_true] at counted
  rw [keptVerdicts, ← counted, total]
  refine congrArg List.sum (List.map_congr_left fun key _ => ?_)
  rw [(stat_at_rest tallies rest key).2.1]
  simp only [beq_true]

theorem total_split (tallies : bridge.Tallies) (rest : bridge.AtRest) :
    bridge.total FilterStats.seen = bridge.total FilterStats.kept + bridge.total FilterStats.dropped := by
  rw [total, total, total, ← List.sum_map_add]
  refine congrArg List.sum (List.map_congr_left fun key _ => ?_)
  obtain ⟨seen, kept, dropped⟩ := stat_at_rest tallies rest key
  rw [seen, kept, dropped, verdicts_split]

end Rest

theorem at_most_one_inside {bridge : Bridge} (flows : bridge.Flows) (place : Nat) (entered : Bool) :
    bridge.among (Phase.isAt place entered) ≤ 1 := by
  refine Nat.le_trans (List.countP_mono_left fun tap _ isAt => ?_) flows.single
  cases isPhase : tap.phase with
  | applying passage => rfl
  | reading | settled _ | counted _ =>
      rw [isPhase] at isAt
      cases isAt

-- Whatever modules are swapped in between: the counters of a slot are behind what it
-- was given by one at most, and when no fragment is under way they add up from slot to
-- slot and to what is counted for the broadcasts.
theorem counters_agree (filters : List WasmFilter) (ops : List BridgeOp) :
    let bridge := run filters ops
    (∀ place slot, bridge.slots[place]? = some slot →
      slot.kept + slot.dropped ≤ slot.seen ∧ slot.seen ≤ slot.kept + slot.dropped + 1 ∧
      slot.seen ≤ bridge.reached place ∧ bridge.reached place ≤ slot.seen + 1) ∧
    (bridge.AtRest →
      (∀ slot ∈ bridge.slots, slot.seen = slot.kept + slot.dropped) ∧
      (∀ place first second, bridge.slots[place]? = some first → bridge.slots[place + 1]? = some second →
        second.seen = first.kept) ∧
      (∀ first, bridge.slots.head? = some first → first.seen = bridge.total FilterStats.seen) ∧
      (∀ last, bridge.slots.getLast? = some last → last.kept = bridge.total FilterStats.kept) ∧
      (bridge.slots.map Slot.dropped).sum = bridge.total FilterStats.dropped ∧
      ∀ key, (bridge.statOf key).seen = (bridge.statOf key).kept + (bridge.statOf key).dropped) := by
  intro bridge
  have flows : bridge.Flows := run_flows filters ops
  have tallies : bridge.Tallies := run_tallies filters ops
  have begun := flows.begun
  have past := flows.past
  refine ⟨fun place slot found => ?_, fun rest => ⟨?_, ?_, ?_, ?_, ?_, ?_⟩⟩
  · have arrived := flows.arrived place slot found
    have judged := flows.judged place slot found
    have waiting := at_most_one_inside flows place false
    have inside := at_most_one_inside flows place true
    omega
  · intro slot member
    obtain ⟨place, found⟩ := List.mem_iff_getElem?.mp member
    exact (slot_at_rest flows rest place slot found).2.1
  · intro place first second isFirst isSecond
    have next := (slot_at_rest flows rest place first isFirst).2.2
    rw [← next]
    exact (slot_at_rest flows rest (place + 1) second isSecond).1.symm
  · intro first isFirst
    rw [List.head?_eq_getElem?] at isFirst
    rw [none_among rest _ rfl] at begun
    rw [total_seen tallies rest, ← (slot_at_rest flows rest 0 first isFirst).1]
    exact begun
  · intro last isLast
    rw [List.getLast?_eq_getElem?] at isLast
    have within := (List.getElem?_eq_some_iff.mp isLast).1
    have whole : bridge.slots.length - 1 + 1 = bridge.slots.length := by omega
    rw [none_among rest _ rfl] at past
    rw [total_kept tallies rest, ← (slot_at_rest flows rest _ last isLast).2.2, whole]
    exact past
  · have through := dropped_before flows rest bridge.slots.length (Nat.le_refl _)
    rw [List.take_length] at through
    rw [none_among rest _ rfl] at begun past
    have split := total_split tallies rest
    rw [total_seen tallies rest, total_kept tallies rest] at split
    omega
  · intro key
    obtain ⟨seen, kept, dropped⟩ := stat_at_rest tallies rest key
    rw [seen, kept, dropped, verdicts_split]

theorem one_fragment_counted : ((run [⟨none⟩, ⟨none⟩] oneFragment).slots.map Slot.dropped).sum =
    (run [⟨none⟩, ⟨none⟩] oneFragment).total FilterStats.dropped := by
  have taps : (run [⟨none⟩, ⟨none⟩] oneFragment).taps = [⟨("live", "0.mp4"), [], .reading⟩] := rfl
  have rest : (run [⟨none⟩, ⟨none⟩] oneFragment).AtRest := by
    intro tap member
    rw [taps] at member
    rw [List.mem_singleton.mp member]
  exact ((counters_agree [⟨none⟩, ⟨none⟩] oneFragment).2 rest).2.2.2.2.1

end Bridge

end Lvqr.Wasm
