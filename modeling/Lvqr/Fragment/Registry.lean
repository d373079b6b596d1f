import Lvqr.Fragment.Broadcaster
import Lvqr.Lib.Machine
import Lvqr.Lib.Tasks

set_option autoImplicit false

-- Concurrent calls on one (broadcast, track) key of the registry. The map lock is
-- dropped before the callbacks run, so a call is several atomic sections and each
-- callback is one more.
namespace Lvqr

structure FragmentBroadcasterRegistry where
  callbacks : List EntryCallback
  removedCallbacks : Nat
  entry : Option Nat
  broadcasters : List FragmentBroadcaster
deriving DecidableEq, Repr

-- `inserting` missed under the read lock and waits for the write lock;
-- `creating` and `removing` carry the callbacks they still have to run.
inductive RegistryTask where
  | getOrCreate (info : FragmentMeta) (uses : List HandleUse)
  | inserting (info : FragmentMeta) (uses : List HandleUse)
  | creating (id : Nat) (callbacks : List EntryCallback) (uses : List HandleUse)
  | get (uses : List HandleUse)
  | holding (id : Nat) (uses : List HandleUse)
  | remove
  | removing (id : Nat) (callbacks : Nat)
  | finished
deriving DecidableEq, Repr

namespace FragmentBroadcasterRegistry

def new (callbacks : List EntryCallback) (removedCallbacks : Nat) : FragmentBroadcasterRegistry :=
  ⟨callbacks, removedCallbacks, none, []⟩

def onBroadcaster (registry : FragmentBroadcasterRegistry) (id : Nat)
    (action : FragmentBroadcaster → FragmentBroadcaster) : FragmentBroadcasterRegistry :=
  { registry with broadcasters := registry.broadcasters.modify id action }

def advance (registry : FragmentBroadcasterRegistry) : RegistryTask → FragmentBroadcasterRegistry × RegistryTask
  | .getOrCreate info uses =>
      match registry.entry with
      | some id => (registry, .holding id uses)
      | none => (registry, .inserting info uses)
  | .inserting info uses =>
      match registry.entry with
      | some id => (registry, .holding id uses)
      | none =>
          let id := registry.broadcasters.length
          ({ registry with entry := some id, broadcasters := registry.broadcasters ++ [.new info] },
            .creating id registry.callbacks uses)
  | .creating id (callback :: callbacks) uses =>
      (registry.onBroadcaster id (·.runCreated callback), .creating id callbacks uses)
  | .creating id [] uses => (registry, .holding id uses)
  | .get uses =>
      match registry.entry with
      | some id => (registry, .holding id uses)
      | none => (registry, .finished)
  | .holding id (use :: uses) => (registry.onBroadcaster id (·.use use), .holding id uses)
  | .holding _ [] => (registry, .finished)
  | .remove =>
      match registry.entry with
      | some id => ({ registry with entry := none }, .removing id registry.removedCallbacks)
      | none => (registry, .finished)
  | .removing id (callbacks + 1) => (registry.onBroadcaster id (·.runRemoved), .removing id callbacks)
  | .removing _ 0 => (registry, .finished)
  | .finished => (registry, .finished)

end FragmentBroadcasterRegistry

inductive RegistryCall where
  | publish (info : FragmentMeta) (uses : List HandleUse)
  | lookup (uses : List HandleUse)
  | remove
deriving DecidableEq, Repr

def RegistryCall.task : RegistryCall → RegistryTask
  | .publish info uses => .getOrCreate info uses
  | .lookup uses => .get uses
  | .remove => .remove

-- The created callbacks this call still has to run on a broadcaster.
def RegistryTask.pending (id : Nat) : RegistryTask → List EntryCallback
  | .creating other callbacks _ => if other = id then callbacks else []
  | _ => []

def RegistryTask.owes (id : Nat) (task : RegistryTask) : Set EntryCallback := {callback | callback ∈ task.pending id}

theorem RegistryTask.owes_creating (id other : Nat) (callbacks : List EntryCallback) (uses : List HandleUse) :
    (RegistryTask.creating id callbacks uses).owes other =
      if id = other then {callback | callback ∈ callbacks} else ∅ := by
  by_cases same : id = other <;> simp [owes, pending, same]

structure RegistryRace where
  registry : FragmentBroadcasterRegistry
  tasks : List RegistryTask
deriving DecidableEq, Repr

namespace RegistryRace

def start (callbacks : List EntryCallback) (removedCallbacks : Nat) (calls : List RegistryCall) : RegistryRace :=
  ⟨.new callbacks removedCallbacks, calls.map RegistryCall.task⟩

def step (race : RegistryRace) (index : Nat) : RegistryRace :=
  match race.tasks[index]? with
  | none => race
  | some task =>
      let (registry, next) := race.registry.advance task
      ⟨registry, race.tasks.set index next⟩

def owing (race : RegistryRace) (id : Nat) : Set EntryCallback := Tasks.owed (RegistryTask.owes id) race.tasks

def Finished (race : RegistryRace) : Prop := ∀ task ∈ race.tasks, task = .finished

instance (race : RegistryRace) : Decidable race.Finished :=
  inferInstanceAs (Decidable (∀ task ∈ race.tasks, task = .finished))

def Faithful (race : RegistryRace) : Prop :=
  ∀ broadcaster ∈ race.registry.broadcasters, broadcaster.Faithful

instance (race : RegistryRace) : Decidable race.Faithful :=
  inferInstanceAs (Decidable (∀ broadcaster ∈ race.registry.broadcasters, broadcaster.Faithful))

-- Nobody emits on a broadcaster that a created callback has still to subscribe
-- to, and its removed callbacks wait for all created ones.
def Undisturbed (race : RegistryRace) (index : Nat) : Prop :=
  match race.tasks[index]? with
  | some (.holding id (.emit _ :: _)) => ∀ task ∈ race.tasks, .subscribes ∉ task.pending id
  | some (.removing id (_ + 1)) => ∀ task ∈ race.tasks, task.pending id = []
  | _ => True

instance (race : RegistryRace) (index : Nat) : Decidable (race.Undisturbed index) := by
  unfold Undisturbed
  split <;> infer_instance

structure Sound (race : RegistryRace) : Prop where
  known : ∀ id callback, callback ∈ race.owing id → id < race.registry.broadcasters.length
  promised : ∀ (id : Nat) (broadcaster : FragmentBroadcaster),
    race.registry.broadcasters[id]? = some broadcaster → broadcaster.Sound (race.owing id)

def Spoiled (race : RegistryRace) : Prop :=
  ∃ (id : Nat) (broadcaster : FragmentBroadcaster),
    race.registry.broadcasters[id]? = some broadcaster ∧ broadcaster.Spoiled (race.owing id)

theorem not_owing (race : RegistryRace) (id : Nat) (callback : EntryCallback) :
    callback ∉ race.owing id ↔ ∀ task ∈ race.tasks, callback ∉ task.pending id := by
  simp [owing, Tasks.owed, RegistryTask.owes]

theorem owing_nothing (race : RegistryRace) (id : Nat) :
    race.owing id = ∅ ↔ ∀ task ∈ race.tasks, task.pending id = [] := by
  simp only [Set.eq_empty_iff_forall_notMem, not_owing, List.eq_nil_iff_forall_not_mem]
  exact ⟨fun none task member callback => none callback task member, fun none callback task member => none task member callback⟩

theorem on_broadcaster_lookup (registry : FragmentBroadcasterRegistry) (id other : Nat)
    (action : FragmentBroadcaster → FragmentBroadcaster) :
    (registry.onBroadcaster id action).broadcasters[other]? =
      if id = other then registry.broadcasters[other]?.map action else registry.broadcasters[other]? := by
  simp [FragmentBroadcasterRegistry.onBroadcaster, List.getElem?_modify]
  split <;> simp_all

-- A section that works on one broadcaster and incurs no callback.
theorem sound_of_action (race : RegistryRace) (id : Nat) (action : FragmentBroadcaster → FragmentBroadcaster)
    (tasks : List RegistryTask) (sound : race.Sound)
    (fewer : ∀ other, (RegistryRace.mk race.registry tasks).owing other ⊆ race.owing other)
    (keeps : ∀ broadcaster : FragmentBroadcaster, broadcaster.Sound (race.owing id) →
      (action broadcaster).Sound ((RegistryRace.mk race.registry tasks).owing id)) :
    (RegistryRace.mk (race.registry.onBroadcaster id action) tasks).Sound where
  known := by
    intro other callback owed
    simpa [FragmentBroadcasterRegistry.onBroadcaster] using sound.known other callback (fewer other owed)
  promised := by
    intro other broadcaster found
    rw [on_broadcaster_lookup] at found
    split at found
    · rename_i same
      subst same
      obtain ⟨before, present, rfl⟩ := Option.map_eq_some_iff.mp found
      exact keeps before (sound.promised id before present)
    · exact (sound.promised other broadcaster found).fewer (fewer other)

theorem spoiled_of_action (race : RegistryRace) (id : Nat) (action : FragmentBroadcaster → FragmentBroadcaster)
    (tasks : List RegistryTask) (spoiled : race.Spoiled)
    (kept : ∀ other, other ≠ id → race.owing other ⊆ (RegistryRace.mk race.registry tasks).owing other)
    (spoils : ∀ broadcaster : FragmentBroadcaster, broadcaster.Spoiled (race.owing id) →
      (action broadcaster).Spoiled ((RegistryRace.mk race.registry tasks).owing id)) :
    (RegistryRace.mk (race.registry.onBroadcaster id action) tasks).Spoiled := by
  obtain ⟨other, broadcaster, found, broken⟩ := spoiled
  by_cases same : id = other
  · subst same
    exact ⟨id, action broadcaster, by simp [on_broadcaster_lookup, found], spoils broadcaster broken⟩
  · exact ⟨other, broadcaster, by simp [on_broadcaster_lookup, same, found], broken.more (kept other (Ne.symm same))⟩

theorem owing_unchanged (race : RegistryRace) (registry : FragmentBroadcasterRegistry) (index : Nat)
    (task next : RegistryTask) (here : race.tasks[index]? = some task)
    (same : ∀ id, next.pending id = task.pending id) (id : Nat) :
    (RegistryRace.mk registry (race.tasks.set index next)).owing id = race.owing id :=
  Tasks.owed_unchanged (RegistryTask.owes id) race.tasks index task next here (by simp [RegistryTask.owes, same])

theorem creating_fewer (race : RegistryRace) (registry : FragmentBroadcasterRegistry) (index id : Nat)
    (callback : EntryCallback) (callbacks : List EntryCallback) (uses : List HandleUse)
    (here : race.tasks[index]? = some (.creating id (callback :: callbacks) uses)) (other : Nat) :
    (RegistryRace.mk registry (race.tasks.set index (.creating id callbacks uses))).owing other ⊆ race.owing other := by
  refine (Tasks.owed_set_subset (RegistryTask.owes other) race.tasks index _).trans
    (Set.union_subset (le_refl _) (Set.Subset.trans ?_ (Tasks.old_owed _ race.tasks index _ here)))
  intro item owed
  by_cases same : id = other
  · rw [RegistryTask.owes_creating, if_pos same] at owed ⊢
    exact List.mem_cons_of_mem callback owed
  · rw [RegistryTask.owes_creating, if_neg same] at owed
    exact absurd owed (Set.notMem_empty item)

theorem creating_elsewhere (race : RegistryRace) (registry : FragmentBroadcasterRegistry) (index id : Nat)
    (callback : EntryCallback) (callbacks : List EntryCallback) (uses : List HandleUse)
    (here : race.tasks[index]? = some (.creating id (callback :: callbacks) uses)) (other : Nat)
    (different : other ≠ id) :
    (RegistryRace.mk registry (race.tasks.set index (.creating id callbacks uses))).owing other = race.owing other :=
  Tasks.owed_unchanged (RegistryTask.owes other) race.tasks index _ _ here
    (by rw [RegistryTask.owes_creating, RegistryTask.owes_creating, if_neg different.symm, if_neg different.symm])

theorem creating_covers (race : RegistryRace) (registry : FragmentBroadcasterRegistry) (index id : Nat)
    (callback : EntryCallback) (callbacks : List EntryCallback) (uses : List HandleUse)
    (here : race.tasks[index]? = some (.creating id (callback :: callbacks) uses)) :
    race.owing id ⊆ insert callback
      ((RegistryRace.mk registry (race.tasks.set index (.creating id callbacks uses))).owing id) := by
  intro item owed
  have still := Tasks.new_owed (RegistryTask.owes id) race.tasks index _ (.creating id callbacks uses) here
  rcases Tasks.owed_subset_set (RegistryTask.owes id) race.tasks index _ (.creating id callbacks uses) here owed
    with now | later
  · rw [RegistryTask.owes_creating, if_pos rfl] at now
    rcases List.mem_cons.mp now with first | rest
    · exact .inl first
    · exact .inr (still (by rwa [RegistryTask.owes_creating, if_pos rfl]))
  · exact .inr later

theorem inserting_owing (race : RegistryRace) (registry : FragmentBroadcasterRegistry) (index id : Nat)
    (info : FragmentMeta) (callbacks : List EntryCallback) (uses : List HandleUse)
    (here : race.tasks[index]? = some (.inserting info uses)) (other : Nat) :
    (RegistryRace.mk registry (race.tasks.set index (.creating id callbacks uses))).owing other =
      race.owing other ∪ if id = other then {callback | callback ∈ callbacks} else ∅ := by
  have incurred := Tasks.owed_incurred (RegistryTask.owes other) race.tasks index _ (.creating id callbacks uses) here
    (Set.eq_empty_of_forall_notMem fun _ => List.not_mem_nil)
  rw [owing, incurred, owing, RegistryTask.owes_creating]

theorem creating_owes (race : RegistryRace) (index id : Nat) (callback : EntryCallback)
    (callbacks : List EntryCallback) (uses : List HandleUse)
    (here : race.tasks[index]? = some (.creating id (callback :: callbacks) uses)) : callback ∈ race.owing id :=
  Tasks.old_owed (RegistryTask.owes id) race.tasks index _ here <| by
    rw [RegistryTask.owes_creating, if_pos rfl]
    exact List.mem_cons_self

-- One section is one advance of its task.
theorem step_task (race : RegistryRace) (index : Nat) (task : RegistryTask) (here : race.tasks[index]? = some task) :
    race.step index = ⟨(race.registry.advance task).1, race.tasks.set index (race.registry.advance task).2⟩ := by
  simp only [step, here]

theorem step_action (race : RegistryRace) (index id : Nat) (task next : RegistryTask)
    (action : FragmentBroadcaster → FragmentBroadcaster) (here : race.tasks[index]? = some task)
    (advances : race.registry.advance task = (race.registry.onBroadcaster id action, next)) :
    race.step index = ⟨race.registry.onBroadcaster id action, race.tasks.set index next⟩ := by
  rw [step_task race index task here, advances]

theorem step_insert (race : RegistryRace) (index : Nat) (info : FragmentMeta) (uses : List HandleUse)
    (here : race.tasks[index]? = some (.inserting info uses)) (absent : race.registry.entry = none) :
    race.step index =
      ⟨{ race.registry with
          entry := some race.registry.broadcasters.length
          broadcasters := race.registry.broadcasters ++ [.new info] },
        race.tasks.set index (.creating race.registry.broadcasters.length race.registry.callbacks uses)⟩ := by
  rw [step_task race index _ here]
  simp only [FragmentBroadcasterRegistry.advance, absent]

theorem insert_sound (race : RegistryRace) (index : Nat) (info : FragmentMeta) (uses : List HandleUse)
    (here : race.tasks[index]? = some (.inserting info uses)) (absent : race.registry.entry = none)
    (sound : race.Sound) : (race.step index).Sound := by
  rw [step_insert race index info uses here absent]
  constructor
  · intro id callback owed
    rw [inserting_owing race _ index _ info _ uses here] at owed
    simp only [List.length_append, List.length_singleton]
    rcases owed with before | fresh
    · exact Nat.lt_succ_of_lt (sound.known id callback before)
    · split at fresh
      · rename_i same
        exact same ▸ Nat.lt_succ_self _
      · exact absurd fresh (Set.notMem_empty _)
  · intro id broadcaster found
    rw [inserting_owing race _ index _ info _ uses here]
    rcases Nat.lt_or_ge id race.registry.broadcasters.length with old | fresh
    · rw [List.getElem?_append_left old] at found
      rw [if_neg (Nat.ne_of_gt old), Set.union_empty]
      exact sound.promised id broadcaster found
    · rw [List.getElem?_append_right fresh] at found
      rw [List.mem_singleton.mp (List.mem_of_getElem? found)]
      exact FragmentBroadcaster.new_sound info _

theorem insert_spoiled (race : RegistryRace) (index : Nat) (info : FragmentMeta) (uses : List HandleUse)
    (here : race.tasks[index]? = some (.inserting info uses)) (absent : race.registry.entry = none)
    (spoiled : race.Spoiled) : (race.step index).Spoiled := by
  obtain ⟨id, broadcaster, found, broken⟩ := spoiled
  rw [step_insert race index info uses here absent]
  refine ⟨id, broadcaster, ?_, broken.more ?_⟩
  · rw [List.getElem?_append_left (List.getElem?_eq_some_iff.mp found).1, found]
  · rw [inserting_owing race _ index _ info _ uses here]
    exact Set.subset_union_left

theorem creating_sound (race : RegistryRace) (index id : Nat) (callback : EntryCallback)
    (callbacks : List EntryCallback) (uses : List HandleUse)
    (here : race.tasks[index]? = some (.creating id (callback :: callbacks) uses)) (sound : race.Sound) :
    (race.step index).Sound := by
  rw [step_action race index id _ (.creating id callbacks uses) (·.runCreated callback) here rfl]
  have fewer := creating_fewer race race.registry index id callback callbacks uses here
  refine sound_of_action race id _ _ sound fewer ?_
  intro broadcaster promised
  exact (FragmentBroadcaster.run_created_sound broadcaster _ callback promised
    (creating_owes race index id callback callbacks uses here)).fewer (fewer id)

theorem creating_spoiled (race : RegistryRace) (index id : Nat) (callback : EntryCallback)
    (callbacks : List EntryCallback) (uses : List HandleUse)
    (here : race.tasks[index]? = some (.creating id (callback :: callbacks) uses)) (spoiled : race.Spoiled) :
    (race.step index).Spoiled := by
  rw [step_action race index id _ (.creating id callbacks uses) (·.runCreated callback) here rfl]
  refine spoiled_of_action race id _ _ spoiled ?_ ?_
  · intro other different
    rw [creating_elsewhere race _ index id callback callbacks uses here other different]
  · intro broadcaster broken
    exact FragmentBroadcaster.run_created_spoiled broadcaster _ _ callback broken
      (creating_covers race _ index id callback callbacks uses here)

theorem holding_sound (race : RegistryRace) (index id : Nat) (action : HandleUse) (uses : List HandleUse)
    (here : race.tasks[index]? = some (.holding id (action :: uses))) (sound : race.Sound)
    (undisturbed : race.Undisturbed index) : (race.step index).Sound := by
  rw [step_action race index id _ (.holding id uses) (·.use action) here rfl]
  have same := owing_unchanged race race.registry index _ (.holding id uses) here (fun _ => rfl)
  refine sound_of_action race id _ _ sound (fun other => (same other).le) ?_
  intro broadcaster promised
  rw [same]
  refine FragmentBroadcaster.use_sound broadcaster _ action promised ?_
  intro fragment isEmit
  subst isEmit
  simp only [Undisturbed, here] at undisturbed
  exact (not_owing race id _).mpr undisturbed

theorem holding_spoiled (race : RegistryRace) (index id : Nat) (action : HandleUse) (uses : List HandleUse)
    (here : race.tasks[index]? = some (.holding id (action :: uses))) (spoiled : race.Spoiled) :
    (race.step index).Spoiled := by
  rw [step_action race index id _ (.holding id uses) (·.use action) here rfl]
  have same := owing_unchanged race race.registry index _ (.holding id uses) here (fun _ => rfl)
  refine spoiled_of_action race id _ _ spoiled (fun other _ => (same other).ge) ?_
  intro broadcaster broken
  rw [same]
  exact FragmentBroadcaster.use_spoiled broadcaster _ action broken

theorem removing_sound (race : RegistryRace) (index id callbacks : Nat)
    (here : race.tasks[index]? = some (.removing id (callbacks + 1))) (sound : race.Sound)
    (undisturbed : race.Undisturbed index) : (race.step index).Sound := by
  rw [step_action race index id _ (.removing id callbacks) (·.runRemoved) here rfl]
  have same := owing_unchanged race race.registry index _ (.removing id callbacks) here (fun _ => rfl)
  refine sound_of_action race id _ _ sound (fun other => (same other).le) ?_
  intro broadcaster promised
  rw [same]
  simp only [Undisturbed, here] at undisturbed
  exact FragmentBroadcaster.run_removed_sound broadcaster _ promised ((owing_nothing race id).mpr undisturbed)

theorem removing_spoiled (race : RegistryRace) (index id callbacks : Nat)
    (here : race.tasks[index]? = some (.removing id (callbacks + 1))) (spoiled : race.Spoiled) :
    (race.step index).Spoiled := by
  rw [step_action race index id _ (.removing id callbacks) (·.runRemoved) here rfl]
  have same := owing_unchanged race race.registry index _ (.removing id callbacks) here (fun _ => rfl)
  refine spoiled_of_action race id _ _ spoiled (fun other _ => (same other).ge) ?_
  intro broadcaster broken
  rw [same]
  exact FragmentBroadcaster.run_removed_spoiled broadcaster _ broken

-- What a step can do: only four kinds of section reach the broadcasters.
inductive StepKind (race : RegistryRace) (index : Nat) : Prop where
  | quiet (untouched : (race.step index).registry.broadcasters = race.registry.broadcasters)
      (same : ∀ id, (race.step index).owing id = race.owing id)
  | insert (info : FragmentMeta) (uses : List HandleUse) (here : race.tasks[index]? = some (.inserting info uses))
      (absent : race.registry.entry = none)
  | created (id : Nat) (callback : EntryCallback) (callbacks : List EntryCallback) (uses : List HandleUse)
      (here : race.tasks[index]? = some (.creating id (callback :: callbacks) uses))
  | used (id : Nat) (action : HandleUse) (uses : List HandleUse)
      (here : race.tasks[index]? = some (.holding id (action :: uses)))
  | removed (id callbacks : Nat) (here : race.tasks[index]? = some (.removing id (callbacks + 1)))

theorem advance_quiet (race : RegistryRace) (index : Nat) (task : RegistryTask)
    (here : race.tasks[index]? = some task)
    (untouched : (race.registry.advance task).1.broadcasters = race.registry.broadcasters)
    (same : ∀ id, (race.registry.advance task).2.pending id = task.pending id) : race.StepKind index := by
  refine .quiet ?_ fun id => ?_
  · rw [step_task race index task here]
    exact untouched
  · rw [step_task race index task here]
    exact owing_unchanged race _ index task _ here same id

theorem step_kind (race : RegistryRace) (index : Nat) : race.StepKind index := by
  cases here : race.tasks[index]? with
  | none => exact .quiet (by simp [step, here]) (by simp [step, here])
  | some task =>
      have quiet := advance_quiet race index task here
      cases task with
      | getOrCreate info uses =>
          cases entry : race.registry.entry <;>
            simp [FragmentBroadcasterRegistry.advance, entry, RegistryTask.pending] at quiet <;> exact quiet
      | inserting info uses =>
          cases entry : race.registry.entry with
          | none => exact .insert info uses here entry
          | some id =>
              simp [FragmentBroadcasterRegistry.advance, entry, RegistryTask.pending] at quiet
              exact quiet
      | creating id callbacks uses =>
          cases callbacks with
          | nil =>
              simp [FragmentBroadcasterRegistry.advance, RegistryTask.pending] at quiet
              exact quiet
          | cons callback callbacks => exact .created id callback callbacks uses here
      | get uses =>
          cases entry : race.registry.entry <;>
            simp [FragmentBroadcasterRegistry.advance, entry, RegistryTask.pending] at quiet <;> exact quiet
      | holding id uses =>
          cases uses with
          | nil => exact quiet rfl fun _ => rfl
          | cons action uses => exact .used id action uses here
      | remove =>
          cases entry : race.registry.entry <;>
            simp [FragmentBroadcasterRegistry.advance, entry, RegistryTask.pending] at quiet <;> exact quiet
      | removing id callbacks =>
          cases callbacks with
          | zero => exact quiet rfl fun _ => rfl
          | succ callbacks => exact .removed id callbacks here
      | finished => exact quiet rfl fun _ => rfl

theorem step_sound (race : RegistryRace) (index : Nat) (sound : race.Sound) (undisturbed : race.Undisturbed index) :
    (race.step index).Sound := by
  cases race.step_kind index with
  | quiet untouched same =>
      refine ⟨fun id callback owed => ?_, fun id broadcaster found => ?_⟩
      · exact untouched ▸ sound.known id callback (same id ▸ owed)
      · exact same id ▸ sound.promised id broadcaster (untouched ▸ found)
  | insert info uses here absent => exact insert_sound race index info uses here absent sound
  | created id callback callbacks uses here => exact creating_sound race index id callback callbacks uses here sound
  | used id action uses here => exact holding_sound race index id action uses here sound undisturbed
  | removed id callbacks here => exact removing_sound race index id callbacks here sound undisturbed

theorem step_spoiled (race : RegistryRace) (index : Nat) (spoiled : race.Spoiled) : (race.step index).Spoiled := by
  cases race.step_kind index with
  | quiet untouched same =>
      obtain ⟨id, broadcaster, found, broken⟩ := spoiled
      exact ⟨id, broadcaster, untouched ▸ found, same id ▸ broken⟩
  | insert info uses here absent => exact insert_spoiled race index info uses here absent spoiled
  | created id callback callbacks uses here => exact creating_spoiled race index id callback callbacks uses here spoiled
  | used id action uses here => exact holding_spoiled race index id action uses here spoiled
  | removed id callbacks here => exact removing_spoiled race index id callbacks here spoiled

-- A subscriber that is still to be attached has missed the fragment.
theorem early_emit_spoils (race : RegistryRace) (index id : Nat) (fragment : Media.Fragment) (uses : List HandleUse)
    (here : race.tasks[index]? = some (.holding id (.emit fragment :: uses))) (sound : race.Sound)
    (owed : .subscribes ∈ race.owing id) : (race.step index).Spoiled := by
  have present := sound.known id .subscribes owed
  rw [step_action race index id _ (.holding id uses) (·.use (.emit fragment)) here rfl]
  refine ⟨id, race.registry.broadcasters[id].emit fragment, ?_, ?_⟩
  · simp [on_broadcaster_lookup, present, FragmentBroadcaster.use]
  · rw [owing_unchanged race _ index _ (.holding id uses) here (fun _ => rfl)]
    exact .willMiss owed (by simp [FragmentBroadcaster.emit])

theorem early_removal_spoils (race : RegistryRace) (index id callbacks : Nat) (callback : EntryCallback)
    (here : race.tasks[index]? = some (.removing id (callbacks + 1))) (sound : race.Sound)
    (owed : callback ∈ race.owing id) : (race.step index).Spoiled := by
  have present := sound.known id callback owed
  rw [step_action race index id _ (.removing id callbacks) (·.runRemoved) here rfl]
  refine ⟨id, race.registry.broadcasters[id].runRemoved, ?_, ?_⟩
  · simp [on_broadcaster_lookup, present]
  · rw [owing_unchanged race _ index _ (.removing id callbacks) here (fun _ => rfl)]
    exact .willDisorder callback owed (by simp [FragmentBroadcaster.runRemoved])

theorem disturbed_spoils (race : RegistryRace) (index : Nat) (sound : race.Sound)
    (disturbed : ¬ race.Undisturbed index) : (race.step index).Spoiled := by
  unfold Undisturbed at disturbed
  split at disturbed
  · rename_i id fragment uses here
    rw [← not_owing, not_not] at disturbed
    exact early_emit_spoils race index id fragment uses here sound disturbed
  · rename_i id callbacks here
    rw [← owing_nothing] at disturbed
    obtain ⟨callback, owed⟩ := Set.nonempty_iff_ne_empty.mpr disturbed
    exact early_removal_spoils race index id callbacks callback here sound owed
  · exact absurd trivial disturbed

theorem finished_not_spoiled (race : RegistryRace) (finished : race.Finished) (faithful : race.Faithful) :
    ¬ race.Spoiled := by
  intro ⟨id, broadcaster, found, broken⟩
  have settled : race.owing id = ∅ := by
    rw [owing_nothing]
    intro task member
    rw [finished task member]
    rfl
  exact FragmentBroadcaster.settled_spoiled broadcaster (settled ▸ broken) (faithful _ (List.mem_of_getElem? found))

theorem sound_faithful (race : RegistryRace) (sound : race.Sound) : race.Faithful := by
  intro broadcaster member
  obtain ⟨id, found⟩ := List.mem_iff_getElem?.mp member
  have promised := sound.promised id broadcaster found
  exact ⟨promised.complete, promised.ordered⟩

theorem start_sound (callbacks : List EntryCallback) (removedCallbacks : Nat) (calls : List RegistryCall) :
    (start callbacks removedCallbacks calls).Sound := by
  constructor
  · intro id callback owed
    refine absurd owed ((not_owing _ id callback).mpr ?_)
    intro task member
    obtain ⟨call, _, rfl⟩ := List.mem_map.mp member
    cases call <;> simp [RegistryCall.task, RegistryTask.pending]
  · simp [start, FragmentBroadcasterRegistry.new]

theorem finished_undisturbed (race : RegistryRace) (schedule : List Nat) (sound : race.Sound)
    (finished : (Machine.run step race schedule).Finished) (faithful : (Machine.run step race schedule).Faithful) :
    Machine.AllSteps Undisturbed step race schedule := by
  induction schedule generalizing race with
  | nil => trivial
  | cons index schedule ih =>
      have undisturbed : race.Undisturbed index := by
        by_contra disturbed
        have spoiled := disturbed_spoils race index sound disturbed
        exact finished_not_spoiled _ finished faithful (Machine.invariant_of_run step_spoiled _ schedule spoiled)
      exact ⟨undisturbed, ih (race.step index) (step_sound race index sound undisturbed) finished faithful⟩

end RegistryRace

open RegistryRace

-- The callbacks keep their promise in every state of an undisturbed run, and a
-- run that went to its end and kept it was undisturbed.
theorem registry_race_faithful_iff (callbacks : List EntryCallback) (removedCallbacks : Nat)
    (calls : List RegistryCall) (schedule : List Nat) :
    (Machine.AllSteps Undisturbed step (start callbacks removedCallbacks calls) schedule →
      ∀ seen, seen <+: schedule → (Machine.run step (start callbacks removedCallbacks calls) seen).Faithful) ∧
    ((Machine.run step (start callbacks removedCallbacks calls) schedule).Finished →
      (Machine.run step (start callbacks removedCallbacks calls) schedule).Faithful →
      Machine.AllSteps Undisturbed step (start callbacks removedCallbacks calls) schedule) := by
  have sound := start_sound callbacks removedCallbacks calls
  refine ⟨fun undisturbed seen isPrefix => ?_, finished_undisturbed _ schedule sound⟩
  obtain ⟨rest, rfl⟩ := isPrefix
  have allowed := (Machine.all_steps_append Undisturbed step _ seen rest).mp undisturbed
  exact sound_faithful _ (Machine.invariant_of_guarded step_sound _ seen sound allowed.1)

def firstFragment : Media.Fragment := ⟨"0.mp4", 1, 0, 0, 3000, .KEYFRAME, [1]⟩

-- Two producers of one track: the first inserts the broadcaster, the second finds
-- it and emits before the first has run the callback that subscribes.
def racingPublishers : List RegistryCall :=
  [.publish (.new "avc1" 90000) [.emit firstFragment], .publish (.new "avc1" 90000) [.emit firstFragment]]

theorem serial_publishers_faithful :
    (∀ seen, seen <+: [0, 0, 0, 0, 0, 0, 1, 1, 1] →
      (Machine.run step (start [.subscribes] 0 racingPublishers) seen).Faithful) ∧
    Machine.AllSteps Undisturbed step (start [.subscribes] 0 racingPublishers) [0, 0, 0, 0, 0, 0, 1, 1, 1] := by
  have ran := registry_race_faithful_iff [.subscribes] 0 racingPublishers [0, 0, 0, 0, 0, 0, 1, 1, 1]
  exact ⟨ran.1 (by decide), ran.2 (by decide) (by decide)⟩

theorem emit_overtakes_created_callback :
    ¬ ∀ (callbacks : List EntryCallback) (removedCallbacks : Nat) (calls : List RegistryCall) (schedule : List Nat),
      (Machine.run step (start callbacks removedCallbacks calls) schedule).Faithful := by
  intro faithful
  have kept := faithful [.subscribes] 0 racingPublishers [0, 0, 1, 1, 0]
  revert kept
  decide

end Lvqr
