import Mathlib.Data.List.Basic
import Mathlib.Data.List.Count
import Lvqr.Lib.Machine

set_option autoImplicit false

-- The bridge that claims a broadcast on the cluster while one of its tracks lives.
namespace Lvqr.Cluster

structure TrackBroadcaster where
  broadcast : String
  track : String
  live : Bool
deriving DecidableEq, Repr

-- `refused` and `released` have still to take the name out of the set: the claim
-- failed, or it has been dropped.
inductive ClaimPhase where
  | claiming
  | refused
  | holding
  | released
  | finished
deriving DecidableEq, Repr

-- The task reads the broadcaster it subscribed to until that closes; what it reads
-- it throws away.
structure ClaimTask where
  broadcast : String
  broadcaster : Nat
  phase : ClaimPhase
deriving DecidableEq, Repr

structure ClaimBridge where
  broadcasters : List TrackBroadcaster
  claimed : List String
  tasks : List ClaimTask
deriving DecidableEq, Repr

-- `handle` is whether the callback runs inside a tokio runtime, `granted` what the
-- cluster says to the claim.
inductive ClaimOp where
  | entryCreated (broadcast track : String) (handle : Bool)
  | close (broadcaster : Nat)
  | advance (task : Nat) (granted : Bool)
deriving DecidableEq, Repr

namespace ClaimBridge

def new : ClaimBridge := ⟨[], [], []⟩

def onEntryCreated (bridge : ClaimBridge) (broadcast track : String) (handle : Bool) : ClaimBridge :=
  let created := { bridge with broadcasters := bridge.broadcasters ++ [⟨broadcast, track, true⟩] }
  if broadcast ∈ bridge.claimed then created
  else if handle then
    { created with
      claimed := broadcast :: bridge.claimed
      tasks := bridge.tasks ++ [⟨broadcast, bridge.broadcasters.length, .claiming⟩] }
  else created

def isLive (bridge : ClaimBridge) (broadcaster : Nat) : Bool :=
  (bridge.broadcasters[broadcaster]?.map TrackBroadcaster.live).getD false

def setPhase (bridge : ClaimBridge) (index : Nat) (task : ClaimTask) (phase : ClaimPhase) : ClaimBridge :=
  { bridge with tasks := bridge.tasks.set index { task with phase := phase } }

def unclaim (bridge : ClaimBridge) (broadcast : String) : ClaimBridge :=
  { bridge with claimed := bridge.claimed.erase broadcast }

def advance (bridge : ClaimBridge) (index : Nat) (granted : Bool) : ClaimBridge :=
  match bridge.tasks[index]? with
  | none => bridge
  | some task =>
      match task.phase with
      | .claiming => bridge.setPhase index task (if granted then .holding else .refused)
      | .holding => if bridge.isLive task.broadcaster then bridge else bridge.setPhase index task .released
      | .refused | .released => (bridge.unclaim task.broadcast).setPhase index task .finished
      | .finished => bridge

def step (bridge : ClaimBridge) : ClaimOp → ClaimBridge
  | .entryCreated broadcast track handle => bridge.onEntryCreated broadcast track handle
  | .close broadcaster =>
      { bridge with broadcasters := bridge.broadcasters.modify broadcaster fun one => { one with live := false } }
  | .advance task granted => bridge.advance task granted

def Flowing (bridge : ClaimBridge) (broadcast : String) : Prop :=
  ∃ one ∈ bridge.broadcasters, one.broadcast = broadcast ∧ one.live = true

-- A task can step unless it is through, or holds its claim on a track that lives.
def CanStep (bridge : ClaimBridge) (task : ClaimTask) : Prop :=
  task.phase ≠ .finished ∧ (task.phase = .holding → bridge.isLive task.broadcaster = false)

def claims (bridge : ClaimBridge) (broadcast : String) : Nat :=
  bridge.tasks.countP fun task => task.broadcast = broadcast && task.phase = .holding

-- Once the tasks of a broadcast have nothing more to do, it has exactly one claim if
-- one of its tracks lives.
def Covered (bridge : ClaimBridge) : Prop :=
  ∀ broadcast, bridge.Flowing broadcast →
    (∀ task ∈ bridge.tasks, task.broadcast = broadcast → ¬bridge.CanStep task) → bridge.claims broadcast = 1

-- A name that no task is at gets one, and none is given up while a track lives.
def Lasting (bridge : ClaimBridge) : ClaimOp → Prop
  | .entryCreated broadcast _ handle => handle = true ∨ broadcast ∈ bridge.claimed
  | .close _ => True
  | .advance index _ => ∀ task, bridge.tasks[index]? = some task →
      task.phase = .refused ∨ task.phase = .released → ¬bridge.Flowing task.broadcast

def working (bridge : ClaimBridge) (broadcast : String) : Nat :=
  bridge.tasks.countP fun task => task.broadcast = broadcast && task.phase ≠ .finished

-- The set of claimed names is the set of names with a task at work, and a name has
-- no two of them.
structure Tracked (bridge : ClaimBridge) : Prop where
  distinct : bridge.claimed.Nodup
  working : ∀ broadcast, bridge.working broadcast = if broadcast ∈ bridge.claimed then 1 else 0

def Watched (bridge : ClaimBridge) : Prop := ∀ broadcast, bridge.Flowing broadcast → broadcast ∈ bridge.claimed

theorem count_set (bridge : ClaimBridge) (index : Nat) (task : ClaimTask) (phase : ClaimPhase) (test : ClaimTask → Bool)
    (here : bridge.tasks[index]? = some task) :
    (bridge.setPhase index task phase).tasks.countP test + (if test task then 1 else 0) =
      bridge.tasks.countP test + if test { task with phase := phase } then 1 else 0 := by
  obtain ⟨bound, isTask⟩ := List.getElem?_eq_some_iff.mp here
  have member : task ∈ bridge.tasks := List.mem_of_getElem? here
  rw [setPhase, List.countP_set bound, isTask]
  by_cases counted : test task = true
  · have positive := List.countP_pos_iff.mpr ⟨task, member, counted⟩
    rw [if_pos counted]
    omega
  · rw [if_neg counted]
    omega

theorem working_set (bridge : ClaimBridge) (index : Nat) (task : ClaimTask) (phase : ClaimPhase)
    (here : bridge.tasks[index]? = some task) (works : task.phase ≠ .finished) (goesOn : phase ≠ .finished)
    (broadcast : String) : (bridge.setPhase index task phase).working broadcast = bridge.working broadcast := by
  have counts := count_set bridge index task phase (fun one => one.broadcast = broadcast && one.phase ≠ .finished) here
  simp only [works, goesOn, ne_eq, not_false_eq_true, decide_true, Bool.and_true] at counts
  exact Nat.add_right_cancel counts

theorem tracked_entry (bridge : ClaimBridge) (broadcast track : String) (handle : Bool) (tracked : bridge.Tracked) :
    (bridge.onEntryCreated broadcast track handle).Tracked := by
  rw [onEntryCreated]
  by_cases present : broadcast ∈ bridge.claimed
  · rw [if_pos present]
    exact ⟨tracked.distinct, tracked.working⟩
  · rw [if_neg present]
    cases handle with
    | false => exact ⟨tracked.distinct, tracked.working⟩
    | true =>
        refine ⟨List.nodup_cons.mpr ⟨present, tracked.distinct⟩, fun other => ?_⟩
        have before := tracked.working other
        rw [working] at before
        simp only [working, if_true, List.countP_append, before, List.mem_cons]
        by_cases same : other = broadcast
        · subst same
          simp [present]
        · have differ : ¬broadcast = other := fun h => same h.symm
          simp [same, differ]

theorem tracked_finish (bridge : ClaimBridge) (index : Nat) (task : ClaimTask)
    (here : bridge.tasks[index]? = some task) (works : task.phase ≠ .finished) (tracked : bridge.Tracked) :
    ((bridge.unclaim task.broadcast).setPhase index task .finished).Tracked ∧ task.broadcast ∈ bridge.claimed := by
  have atWork : 0 < bridge.working task.broadcast :=
    List.countP_pos_iff.mpr ⟨task, List.mem_of_getElem? here, by simp [works]⟩
  have member : task.broadcast ∈ bridge.claimed := by
    by_contra absent
    rw [tracked.working, if_neg absent] at atWork
    cases atWork
  refine ⟨⟨tracked.distinct.erase _, fun other => ?_⟩, member⟩
  have counts := count_set (bridge.unclaim task.broadcast) index task .finished
    (fun one => one.broadcast = other && one.phase ≠ .finished) here
  have before := tracked.working other
  have same : ((bridge.unclaim task.broadcast).setPhase index task .finished).claimed =
      bridge.claimed.erase task.broadcast := rfl
  simp only [same, tracked.distinct.mem_erase_iff]
  have unclaimed : (bridge.unclaim task.broadcast).tasks = bridge.tasks := rfl
  rw [working] at before ⊢
  rw [unclaimed, before] at counts
  by_cases isOther : task.broadcast = other
  · subst isOther
    simpa [works, member] using counts
  · have differ : other ≠ task.broadcast := fun h => isOther h.symm
    simpa [isOther, differ] using counts

theorem step_tracked (bridge : ClaimBridge) (op : ClaimOp) (tracked : bridge.Tracked) : (bridge.step op).Tracked := by
  cases op with
  | entryCreated broadcast track handle => exact tracked_entry bridge broadcast track handle tracked
  | close broadcaster => exact ⟨tracked.distinct, tracked.working⟩
  | advance index granted =>
      rw [step, advance]
      cases here : bridge.tasks[index]? with
      | none => exact tracked
      | some task =>
          have still : ∀ phase, task.phase ≠ .finished → phase ≠ .finished →
              (bridge.setPhase index task phase).Tracked := by
            intro phase works goesOn
            refine ⟨tracked.distinct, fun broadcast => ?_⟩
            rw [working_set bridge index task phase here works goesOn]
            exact tracked.working broadcast
          dsimp only
          cases phase : task.phase with
          | claiming => exact still _ (by simp [phase]) (by cases granted <;> simp)
          | holding =>
              dsimp only
              split
              · exact tracked
              · exact still _ (by simp [phase]) (by simp)
          | refused => exact (tracked_finish bridge index task here (by simp [phase]) tracked).1
          | released => exact (tracked_finish bridge index task here (by simp [phase]) tracked).1
          | finished => exact tracked

-- With nothing more to do, a claimed name has its claim and another has none.
theorem covered_iff_watched (bridge : ClaimBridge) (tracked : bridge.Tracked) : bridge.Covered ↔ bridge.Watched := by
  constructor
  · intro covered broadcast flowing
    by_contra absent
    have nobody := tracked.working broadcast
    rw [if_neg absent, working, List.countP_eq_zero] at nobody
    have through : ∀ task ∈ bridge.tasks, task.broadcast = broadcast → task.phase = .finished := by
      intro task member isName
      simpa [isName] using nobody task member
    have one := covered broadcast flowing fun task member isName canStep => canStep.1 (through task member isName)
    have positive : 0 < bridge.claims broadcast := by rw [one]; exact Nat.one_pos
    obtain ⟨task, member, holds⟩ := List.countP_pos_iff.mp positive
    simp only [Bool.and_eq_true, decide_eq_true_eq] at holds
    have isThrough := through task member holds.1
    rw [holds.2] at isThrough
    cases isThrough
  · intro watched broadcast flowing blocked
    have one := tracked.working broadcast
    rw [if_pos (watched broadcast flowing)] at one
    have same : bridge.claims broadcast = bridge.working broadcast := by
      refine List.countP_congr fun task member => ?_
      by_cases isName : task.broadcast = broadcast
      · have stuck := blocked task member isName
        rw [CanStep] at stuck
        by_cases isThrough : task.phase = .finished
        · simp [isThrough]
        · have holds : task.phase = .holding := by
            by_contra other
            exact stuck ⟨isThrough, fun holding => absurd holding other⟩
          simp [isName, holds]
      · simp [isName]
    rw [same, one]

theorem flowing_entry (bridge : ClaimBridge) (broadcast track other : String) (handle : Bool) :
    (bridge.onEntryCreated broadcast track handle).Flowing other ↔ other = broadcast ∨ bridge.Flowing other := by
  have broadcasters : (bridge.onEntryCreated broadcast track handle).broadcasters =
      bridge.broadcasters ++ [⟨broadcast, track, true⟩] := by
    rw [onEntryCreated]
    split
    · rfl
    · split <;> rfl
  rw [Flowing, broadcasters]
  constructor
  · rintro ⟨one, member, isName, live⟩
    rcases List.mem_append.mp member with before | isNew
    · exact .inr ⟨one, before, isName, live⟩
    · rw [List.mem_singleton] at isNew
      subst isNew
      exact .inl isName.symm
  · rintro (rfl | ⟨one, member, isName, live⟩)
    · exact ⟨_, List.mem_append_right _ (List.mem_singleton_self _), rfl, rfl⟩
    · exact ⟨one, List.mem_append_left _ member, isName, live⟩

theorem watched_entry (bridge : ClaimBridge) (broadcast track : String) (handle : Bool) (watched : bridge.Watched) :
    (bridge.onEntryCreated broadcast track handle).Watched ↔ handle = true ∨ broadcast ∈ bridge.claimed := by
  have claimed : ∀ other, other ∈ (bridge.onEntryCreated broadcast track handle).claimed ↔
      other ∈ bridge.claimed ∨ other = broadcast ∧ handle = true := by
    intro other
    rw [onEntryCreated]
    by_cases present : broadcast ∈ bridge.claimed
    · rw [if_pos present]
      exact ⟨.inl, fun either => either.elim id fun ⟨same, _⟩ => same ▸ present⟩
    · rw [if_neg present]
      cases handle <;> simp [or_comm]
  constructor
  · intro after
    have isClaimed := after broadcast ((flowing_entry bridge broadcast track broadcast handle).mpr (.inl rfl))
    exact ((claimed broadcast).mp isClaimed).symm.imp_left fun ⟨_, given⟩ => given
  · intro either other flowing
    rw [claimed]
    rcases (flowing_entry bridge broadcast track other handle).mp flowing with rfl | before
    · exact either.elim (fun given => .inr ⟨rfl, given⟩) .inl
    · exact .inl (watched other before)

theorem watched_close (bridge : ClaimBridge) (broadcaster : Nat) (watched : bridge.Watched) :
    (bridge.step (.close broadcaster)).Watched := by
  rintro broadcast ⟨one, member, isName, live⟩
  refine watched broadcast ?_
  obtain ⟨place, found⟩ := List.mem_iff_getElem?.mp member
  have modified : (bridge.broadcasters.modify broadcaster fun one => { one with live := false })[place]? = some one := found
  rw [List.getElem?_modify] at modified
  obtain ⟨old, isOld, isNew⟩ := Option.map_eq_some_iff.mp modified
  split at isNew
  · subst isNew
    cases live
  · subst isNew
    exact ⟨old, List.mem_of_getElem? isOld, isName, live⟩

theorem watched_finish (bridge : ClaimBridge) (index : Nat) (task : ClaimTask) (tracked : bridge.Tracked)
    (watched : bridge.Watched) :
    ((bridge.unclaim task.broadcast).setPhase index task .finished).Watched ↔ ¬bridge.Flowing task.broadcast := by
  have claimed : ∀ other, other ∈ ((bridge.unclaim task.broadcast).setPhase index task .finished).claimed ↔
      other ≠ task.broadcast ∧ other ∈ bridge.claimed := fun other => tracked.distinct.mem_erase_iff
  constructor
  · intro after flowing
    exact ((claimed _).mp (after task.broadcast flowing)).1 rfl
  · intro silent other flowing
    refine (claimed other).mpr ⟨?_, watched other flowing⟩
    rintro rfl
    exact silent flowing

theorem step_watched (bridge : ClaimBridge) (op : ClaimOp) (tracked : bridge.Tracked) (watched : bridge.Watched) :
    (bridge.step op).Watched ↔ bridge.Lasting op := by
  cases op with
  | entryCreated broadcast track handle => exact watched_entry bridge broadcast track handle watched
  | close broadcaster => exact iff_of_true (watched_close bridge broadcaster watched) trivial
  | advance index granted =>
      rw [step, advance, Lasting]
      cases here : bridge.tasks[index]? with
      | none => exact iff_of_true watched fun _ found => by cases found
      | some task =>
          dsimp only
          simp only [Option.some.injEq, forall_eq']
          cases phase : task.phase with
          | claiming => exact iff_of_true watched (by simp)
          | holding =>
              refine iff_of_true ?_ (by simp)
              dsimp only
              split <;> exact watched
          | refused => simpa using watched_finish bridge index task tracked watched
          | released => simpa using watched_finish bridge index task tracked watched
          | finished => exact iff_of_true watched (by simp)

theorem claim_covers_iff (ops : List ClaimOp) :
    (∀ seen, seen <+: ops → (Machine.run step new seen).Covered) ↔ Machine.AllSteps Lasting step new ops := by
  have start : new.Tracked := ⟨List.nodup_nil, fun _ => rfl⟩
  refine Machine.invariant_iff_guarded_under step_tracked (fun bridge op tracked covered => ?_) new ops start ?_
  · rw [covered_iff_watched _ (step_tracked bridge op tracked)]
    exact step_watched bridge op tracked ((covered_iff_watched bridge tracked).mp covered)
  · rintro broadcast ⟨_, member, _⟩
    cases member

-- Video and audio of one broadcast; the video track ends first.
def videoEndsFirst : List ClaimOp :=
  [.entryCreated "live/camera" "0.mp4" true, .entryCreated "live/camera" "1.mp4" true, .advance 0 true, .close 0,
    .advance 0 true, .advance 0 true]

theorem claim_lost_with_first_track :
    ¬∀ ops seen, seen <+: ops → (Machine.run step new seen).Covered := by
  intro always
  have covered := always videoEndsFirst videoEndsFirst (List.prefix_refl _)
  have one := covered "live/camera" ⟨⟨"live/camera", "1.mp4", true⟩, by decide, rfl, rfl⟩ (by
    intro task member _ canStep
    have finished : (Machine.run step new videoEndsFirst).tasks = [⟨"live/camera", 0, .finished⟩] := rfl
    rw [finished, List.mem_singleton] at member
    exact canStep.1 (by rw [member]))
  have none : (Machine.run step new videoEndsFirst).claims "live/camera" = 0 := rfl
  rw [none] at one
  cases one

end ClaimBridge

end Lvqr.Cluster
