import Lvqr.Lib.Machine
import Lvqr.Lib.Table
import Lvqr.Wasm.Filter

set_option autoImplicit false

-- The tap on the registry: a task for each broadcaster takes its fragments through the
-- one chain, while the modules in the chain's slots are swapped.
namespace Lvqr.Wasm

abbrev StatsKey := String × String

structure FilterStats where
  seen : Nat
  kept : Nat
  dropped : Nat
deriving DecidableEq, Repr

-- A shared filter with its counters.
structure Slot where
  filter : WasmFilter
  seen : Nat
  kept : Nat
  dropped : Nat

def Slot.new (filter : WasmFilter) : Slot := ⟨filter, 0, 0, 0⟩

-- An apply under way has the fragment as the slots before `place` left it. What was
-- taken from the stream and the modules it went through are ghost state.
structure Passage where
  place : Nat
  entered : Bool
  fragment : Media.Fragment
  taken : Media.Fragment
  used : List WasmFilter

inductive Phase where
  | reading
  | applying (passage : Passage)
  | settled (kept : Bool)
  | counted (kept : Bool)

def Phase.isApplying : Phase → Bool
  | .applying _ => true
  | .reading | .settled _ | .counted _ => false

structure Tap where
  key : StatsKey
  queue : List Media.Fragment
  phase : Phase

-- What an apply came to, ghost state as well.
structure Verdict where
  key : StatsKey
  taken : Media.Fragment
  used : List WasmFilter
  out : Option Media.Fragment

structure Bridge where
  slots : List Slot
  stats : Table StatsKey FilterStats
  taps : List Tap
  begun : Nat
  verdicts : List Verdict

inductive BridgeOp where
  | created (key : StatsKey)
  | delivered (tap : Nat) (fragment : Media.Fragment)
  | turn (tap : Nat)
  | replace (slot : Nat) (filter : WasmFilter)

namespace Bridge

def install (filters : List WasmFilter) : Bridge := ⟨filters.map Slot.new, ∅, [], 0, []⟩

def statOf (bridge : Bridge) (key : StatsKey) : FilterStats := (bridge.stats.lookup key).getD ⟨0, 0, 0⟩

-- The chain is behind a lock of its own for the whole of an apply.
def locked (bridge : Bridge) : Bool := bridge.taps.any fun tap => tap.phase.isApplying

def withSlot (bridge : Bridge) (place : Nat) (change : Slot → Slot) : Bridge :=
  { bridge with slots := bridge.slots.modify place change }

def withTap (bridge : Bridge) (index : Nat) (change : Tap → Tap) : Bridge :=
  { bridge with taps := bridge.taps.modify index change }

def withPhase (bridge : Bridge) (index : Nat) (phase : Phase) : Bridge :=
  bridge.withTap index fun tap => { tap with phase := phase }

def withStat (bridge : Bridge) (key : StatsKey) (change : FilterStats → FilterStats) : Bridge :=
  { bridge with stats := bridge.stats.insert key (change (bridge.statOf key)) }

def judged (bridge : Bridge) (verdict : Verdict) : Bridge := { bridge with verdicts := bridge.verdicts ++ [verdict] }

def applyTurn (bridge : Bridge) (index : Nat) (key : StatsKey) (passage : Passage) : Bridge :=
  match bridge.slots[passage.place]? with
  | none =>
      (bridge.judged ⟨key, passage.taken, passage.used, some passage.fragment⟩).withPhase index (.settled true)
  | some slot =>
      if passage.entered then
        match slot.filter.apply passage.fragment with
        | some out =>
            (bridge.withSlot passage.place fun slot => { slot with kept := slot.kept + 1 }).withPhase index
              (.applying ⟨passage.place + 1, false, out, passage.taken, passage.used ++ [slot.filter]⟩)
        | none =>
            ((bridge.withSlot passage.place fun slot => { slot with dropped := slot.dropped + 1 }).judged
              ⟨key, passage.taken, passage.used ++ [slot.filter], none⟩).withPhase index (.settled false)
      else
        (bridge.withSlot passage.place fun slot => { slot with seen := slot.seen + 1 }).withPhase index
          (.applying { passage with entered := true })

def turn (bridge : Bridge) (index : Nat) (tap : Tap) : Bridge :=
  match tap.phase with
  | .reading =>
      match tap.queue with
      | [] => bridge
      | fragment :: rest =>
          if bridge.locked then bridge
          else
            let begun := bridge.withTap index fun tap => ⟨tap.key, rest, .applying ⟨0, false, fragment, fragment, []⟩⟩
            { begun with begun := bridge.begun + 1 }
  | .applying passage => bridge.applyTurn index tap.key passage
  | .settled kept =>
      (bridge.withStat tap.key fun stat => { stat with seen := stat.seen + 1 }).withPhase index (.counted kept)
  | .counted kept =>
      (bridge.withStat tap.key fun stat =>
        if kept then { stat with kept := stat.kept + 1 } else { stat with dropped := stat.dropped + 1 }).withPhase
          index .reading

def step (bridge : Bridge) : BridgeOp → Bridge
  | .created key =>
      { bridge with
        stats := bridge.stats.insert key (bridge.statOf key)
        taps := bridge.taps ++ [⟨key, [], .reading⟩] }
  | .delivered index fragment => bridge.withTap index fun tap => { tap with queue := tap.queue ++ [fragment] }
  | .turn index =>
      match bridge.taps[index]? with
      | none => bridge
      | some tap => bridge.turn index tap
  | .replace place filter => bridge.withSlot place fun slot => { slot with filter := filter }

end Bridge

section Soundness

variable (filters : List WasmFilter) (ops : List BridgeOp)

-- The modules that were in a slot at some time.
def HeldIn (place : Nat) (filter : WasmFilter) : Prop := filters[place]? = some filter ∨ .replace place filter ∈ ops

def Held (used : List WasmFilter) : Prop := ∀ place filter, used[place]? = some filter → HeldIn filters ops place filter

-- What an apply has done so far, and what one that is over has done.
structure Passage.Sound (passage : Passage) : Prop where
  passed : chainApply passage.used passage.taken = some passage.fragment
  length : passage.used.length = passage.place
  within : passage.place ≤ filters.length
  inside : passage.entered = true → passage.place < filters.length
  held : Held filters ops passage.used

structure Verdict.Sound (verdict : Verdict) : Prop where
  result : chainApply verdict.used verdict.taken = verdict.out
  whole : verdict.out.isSome → verdict.used.length = filters.length
  held : Held filters ops verdict.used

structure Bridge.Sound (bridge : Bridge) : Prop where
  length : bridge.slots.length = filters.length
  slots : ∀ place slot, bridge.slots[place]? = some slot → HeldIn filters ops place slot.filter
  taps : ∀ tap ∈ bridge.taps, ∀ passage, tap.phase = .applying passage → passage.Sound filters ops
  verdicts : ∀ verdict ∈ bridge.verdicts, verdict.Sound filters ops

variable {filters ops}

theorem HeldIn.grows {place : Nat} {filter : WasmFilter} (held : HeldIn filters ops place filter) (op : BridgeOp) :
    HeldIn filters (ops ++ [op]) place filter :=
  held.imp id (List.mem_append_left [op])

theorem Held.grows {used : List WasmFilter} (held : Held filters ops used) (op : BridgeOp) :
    Held filters (ops ++ [op]) used :=
  fun place filter isUsed => (held place filter isUsed).grows op

theorem Held.snoc {used : List WasmFilter} {filter : WasmFilter} (held : Held filters ops used)
    (last : HeldIn filters ops used.length filter) : Held filters ops (used ++ [filter]) := by
  intro place one isUsed
  rw [List.getElem?_append] at isUsed
  split at isUsed
  · exact held place one isUsed
  · rename_i past
    obtain ⟨isLast, rfl⟩ := List.getElem?_eq_some_iff.mp isUsed
    rw [List.length_singleton] at isLast
    obtain rfl : place = used.length := by omega
    rw [List.getElem_singleton]
    exact last

end Soundness

namespace Bridge

section Steps

variable {filters : List WasmFilter} {ops : List BridgeOp} {bridge : Bridge}

theorem Sound.grows (sound : bridge.Sound filters ops) (op : BridgeOp) : bridge.Sound filters (ops ++ [op]) where
  length := sound.length
  slots := fun place slot found => (sound.slots place slot found).grows op
  taps := fun tap member passage isPassage =>
    have before := sound.taps tap member passage isPassage
    ⟨before.passed, before.length, before.within, before.inside, before.held.grows op⟩
  verdicts := fun verdict member =>
    have before := sound.verdicts verdict member
    ⟨before.result, before.whole, before.held.grows op⟩

theorem Sound.withSlot (sound : bridge.Sound filters ops) (place : Nat) (change : Slot → Slot)
    (held : ∀ slot, bridge.slots[place]? = some slot → HeldIn filters ops place (change slot).filter) :
    (bridge.withSlot place change).Sound filters ops where
  length := (List.length_modify _ _ _).trans sound.length
  slots := by
    intro other slot found
    rw [Bridge.withSlot, List.getElem?_modify] at found
    obtain ⟨before, isBefore, rfl⟩ := Option.map_eq_some_iff.mp found
    split
    · rename_i same
      exact same ▸ held before (same ▸ isBefore)
    · exact sound.slots other before isBefore
  taps := sound.taps
  verdicts := sound.verdicts

theorem Sound.withTap (sound : bridge.Sound filters ops) (index : Nat) (change : Tap → Tap)
    (passes : ∀ tap ∈ bridge.taps, ∀ passage, (change tap).phase = .applying passage → passage.Sound filters ops) :
    (bridge.withTap index change).Sound filters ops where
  length := sound.length
  slots := sound.slots
  taps := by
    intro tap member passage isPassage
    obtain ⟨other, found⟩ := List.mem_iff_getElem?.mp member
    rw [Bridge.withTap, List.getElem?_modify] at found
    obtain ⟨before, isBefore, rfl⟩ := Option.map_eq_some_iff.mp found
    have isTap := List.mem_of_getElem? isBefore
    split at isPassage
    · exact passes before isTap passage isPassage
    · exact sound.taps before isTap passage isPassage
  verdicts := sound.verdicts

theorem Sound.withPhase (sound : bridge.Sound filters ops) (index : Nat) (phase : Phase)
    (passes : ∀ passage, phase = .applying passage → passage.Sound filters ops) :
    (bridge.withPhase index phase).Sound filters ops :=
  sound.withTap index _ fun _ _ => passes

theorem Sound.withoutPassage (sound : bridge.Sound filters ops) (index : Nat) (phase : Phase)
    (idle : phase.isApplying = false) : (bridge.withPhase index phase).Sound filters ops := by
  refine sound.withPhase index phase fun passage isPassage => ?_
  rw [isPassage] at idle
  cases idle

theorem Sound.judged (sound : bridge.Sound filters ops) (verdict : Verdict) (judged : verdict.Sound filters ops) :
    (bridge.judged verdict).Sound filters ops where
  length := sound.length
  slots := sound.slots
  taps := sound.taps
  verdicts := by
    intro one member
    rcases List.mem_append.mp member with before | last
    · exact sound.verdicts one before
    · exact List.mem_singleton.mp last ▸ judged

theorem Sound.withStat (sound : bridge.Sound filters ops) (key : StatsKey) (change : FilterStats → FilterStats) :
    (bridge.withStat key change).Sound filters ops :=
  ⟨sound.length, sound.slots, sound.taps, sound.verdicts⟩

theorem apply_turn_sound (sound : bridge.Sound filters ops) (index : Nat) (key : StatsKey) (passage : Passage)
    (passes : passage.Sound filters ops) : (bridge.applyTurn index key passage).Sound filters ops := by
  rw [applyTurn]
  cases isSlot : bridge.slots[passage.place]? with
  | none =>
      have past := List.getElem?_eq_none_iff.mp isSlot
      have whole : passage.used.length = filters.length := by
        have := sound.length
        have := passes.length
        have := passes.within
        omega
      exact (sound.judged _ ⟨passes.passed, fun _ => whole, passes.held⟩).withoutPassage index _ rfl
  | some slot =>
      have holder := sound.slots passage.place slot isSlot
      have used : Held filters ops (passage.used ++ [slot.filter]) := passes.held.snoc (passes.length ▸ holder)
      have within := (List.getElem?_eq_some_iff.mp isSlot).1
      have length : (passage.used ++ [slot.filter]).length = passage.place + 1 := by
        rw [List.length_append, passes.length, List.length_singleton]
      have through : chainApply (passage.used ++ [slot.filter]) passage.taken = slot.filter.apply passage.fragment := by
        rw [chain_apply_snoc, passes.passed, Option.bind_some]
      dsimp only
      split
      · cases applied : slot.filter.apply passage.fragment with
        | some out =>
            have kept := sound.withSlot passage.place (fun slot => { slot with kept := slot.kept + 1 }) (sound.slots _)
            refine kept.withPhase index _ fun next isNext => ?_
            cases isNext
            exact ⟨through.trans applied, length, sound.length ▸ within, nofun, used⟩
        | none =>
            have dropped := sound.withSlot passage.place (fun slot => { slot with dropped := slot.dropped + 1 }) (sound.slots _)
            have finished : Verdict.Sound filters ops ⟨key, passage.taken, passage.used ++ [slot.filter], none⟩ :=
              ⟨through.trans applied, nofun, used⟩
            exact (dropped.judged _ finished).withoutPassage index _ rfl
      · have seen := sound.withSlot passage.place (fun slot => { slot with seen := slot.seen + 1 }) (sound.slots _)
        refine seen.withPhase index _ fun next isNext => ?_
        cases isNext
        exact ⟨passes.passed, passes.length, passes.within, fun _ => sound.length ▸ within, passes.held⟩

theorem turn_sound (sound : bridge.Sound filters ops) (index : Nat) (tap : Tap)
    (found : bridge.taps[index]? = some tap) : (bridge.turn index tap).Sound filters ops := by
  rw [turn]
  cases isPhase : tap.phase with
  | reading =>
      dsimp only
      split
      · exact sound
      · rename_i fragment rest _
        split
        · exact sound
        · have begun := sound.withTap index (fun tap => ⟨tap.key, rest, .applying ⟨0, false, fragment, fragment, []⟩⟩) <| by
            intro _ _ passage isPassage
            cases isPassage
            exact ⟨rfl, rfl, Nat.zero_le _, nofun, fun place filter isUsed => by cases isUsed⟩
          exact ⟨begun.length, begun.slots, begun.taps, begun.verdicts⟩
  | applying passage =>
      exact apply_turn_sound sound index tap.key passage (sound.taps tap (List.mem_of_getElem? found) passage isPhase)
  | settled kept => exact (sound.withStat tap.key _).withoutPassage index _ rfl
  | counted kept => exact (sound.withStat tap.key _).withoutPassage index _ rfl

theorem step_sound (sound : bridge.Sound filters ops) (op : BridgeOp) :
    (bridge.step op).Sound filters (ops ++ [op]) := by
  have before := sound.grows op
  cases op with
  | created key =>
      refine ⟨before.length, before.slots, ?_, before.verdicts⟩
      intro tap member passage isPassage
      rcases List.mem_append.mp member with old | new
      · exact before.taps tap old passage isPassage
      · obtain rfl := List.mem_singleton.mp new
        cases isPassage
  | delivered index fragment => exact before.withTap index _ before.taps
  | turn index =>
      rw [step]
      cases found : bridge.taps[index]? with
      | none => exact before
      | some tap => exact turn_sound before index tap found
  | replace place filter =>
      exact before.withSlot place _ fun slot _ => .inr (List.mem_append_right ops (List.mem_singleton_self _))

end Steps

def run (filters : List WasmFilter) (ops : List BridgeOp) : Bridge := Machine.run step (install filters) ops

theorem run_sound (filters : List WasmFilter) (ops : List BridgeOp) : (run filters ops).Sound filters ops := by
  induction ops using List.reverseRecOn with
  | nil =>
      refine ⟨List.length_map _, ?_, List.forall_mem_nil _, List.forall_mem_nil _⟩
      intro place slot found
      rw [run, Machine.run_nil, install, List.getElem?_map] at found
      obtain ⟨filter, isFilter, rfl⟩ := Option.map_eq_some_iff.mp found
      exact .inl isFilter
  | append_singleton ops op ih =>
      rw [run, Machine.run_snoc]
      exact step_sound ih op

-- Every verdict is that of a chain run, each slot's part by one module that was there,
-- and nothing but the payload is changed.
theorem verdict_of_chain (filters : List WasmFilter) (ops : List BridgeOp) :
    ∀ verdict ∈ (run filters ops).verdicts, chainApply verdict.used verdict.taken = verdict.out ∧
      (verdict.out.isSome → verdict.used.length = filters.length) ∧
      (∀ place filter, verdict.used[place]? = some filter →
        filters[place]? = some filter ∨ .replace place filter ∈ ops) ∧
      ∀ out, verdict.out = some out → out = { verdict.taken with payload := out.payload } := by
  intro verdict member
  have sound := (run_sound filters ops).verdicts verdict member
  refine ⟨sound.result, sound.whole, sound.held, fun out isOut => ?_⟩
  exact chain_keeps verdict.used verdict.taken out (sound.result.trans isOut)

-- One fragment through two modules that have no exports.
def oneSample : Media.Fragment := ⟨"0.mp4", 0, 0, 0, 0, .DELTA, [1]⟩

def oneFragment : List BridgeOp :=
  .created ("live", "0.mp4") :: .delivered 0 oneSample :: List.replicate 8 (.turn 0)

theorem one_fragment_passed : chainApply [⟨none⟩, ⟨none⟩] oneSample = some oneSample := by
  have member : ⟨("live", "0.mp4"), oneSample, [⟨none⟩, ⟨none⟩], some oneSample⟩ ∈
      (run [⟨none⟩, ⟨none⟩] oneFragment).verdicts := List.mem_singleton_self _
  exact (verdict_of_chain [⟨none⟩, ⟨none⟩] oneFragment _ member).1

end Bridge

end Lvqr.Wasm
