import Lvqr.Runner.Drains

set_option autoImplicit false

-- When nothing is pending, the drains of the registered factories are those the
-- registry's entries call for.
namespace Lvqr

variable {Factory Label : Type}

def SpawnLoop.owes : SpawnLoop Factory → Set (Spawn Factory)
  | .entryCreated key source factories => {spawn | spawn.factory ∈ factories ∧ spawn.key = key ∧ spawn.source = source}
  | .factoryAdded factory keys => {spawn | spawn.factory = factory ∧ spawn.key ∈ keys}

namespace RunnerActivity

-- The calls of `spawn_for` that an activity has still to make or to end.
def owes : RunnerActivity Factory → Set (Spawn Factory)
  | .created key source => {spawn | spawn.key = key ∧ spawn.source = source}
  | .added factory => {spawn | spawn.factory = factory}
  | .looping rest => rest.owes
  | .spawning spawn _ rest => insert spawn rest.owes
  | .removing _ => ∅
  | .finished _ => ∅

def aborts (kind : RunnerKind Factory Label) : RunnerActivity Factory → Set Label
  | .removing name => {label | kind.named name label = true}
  | .created _ _ => ∅
  | .added _ => ∅
  | .looping _ => ∅
  | .spawning _ _ _ => ∅
  | .finished _ => ∅

end RunnerActivity

namespace RunnerInner

variable (kind : RunnerKind Factory Label) (inner : RunnerInner Factory Label)

-- A registered factory accepts the entry that `spawn` names, as it is now.
def Wanted (spawn : Spawn Factory) : Prop :=
  spawn.factory ∈ inner.factories ∧ inner.registry.lookup spawn.key = some spawn.source ∧
    kind.refuses inner.factories spawn.key.1 = false ∧ kind.builds spawn = true

def Drained (spawn : Spawn Factory) : Prop := ⟨spawn, true⟩ ∈ inner.drains

def runningDrains [DecidableEq Factory] (factory : Factory) (key : SourceKey) : List (Drain Factory) :=
  inner.drains.filter fun drain => drain.running && drain.spawn.factory = factory && drain.spawn.key = key

structure Covers [DecidableEq Factory] : Prop where
  entries : ∀ spawn, inner.Wanted kind spawn → inner.runningDrains spawn.factory spawn.key = [⟨spawn, true⟩]
  removed : ∀ drain ∈ inner.drains, drain.running = true → drain.spawn.factory ∈ inner.factories

end RunnerInner

namespace RunnerRace

variable [DecidableEq Label] (kind : RunnerKind Factory Label) (race : RunnerRace Factory Label)

def owing : Set (Spawn Factory) := Tasks.owed RunnerActivity.owes race.activities

def aborting : Set Label := Tasks.owed (RunnerActivity.aborts kind) race.activities

def Quiescent : Prop := ∀ activity ∈ race.activities, ∃ answer, activity = .finished answer

structure Sound : Prop where
  handled : race.inner.Handled kind
  kept : ∀ drain ∈ race.inner.drains, drain.running = true →
    drain.spawn.factory ∈ race.inner.factories ∨ kind.label drain.spawn.factory ∈ race.aborting kind
  covered : ∀ spawn, race.inner.Wanted kind spawn → race.inner.Drained spawn ∨ spawn ∈ race.owing

-- A slot that is taken is taken by the very drain that is asked for, and nothing
-- spawns for a factory whose removal has been carried out.
def SpawnAllowed (inRuntime : Bool) (spawn : Spawn Factory) : SpawnStage → Prop
  | .check => race.inner.tasks.lookup (RunnerInner.slot kind spawn) ≠ none →
      race.inner.Wanted kind spawn → race.inner.Drained spawn
  | .build => inRuntime = false → race.inner.Wanted kind spawn → race.inner.Drained spawn
  | .reserve =>
      (race.inner.tasks.lookup (RunnerInner.slot kind spawn) ≠ none →
        race.inner.Wanted kind spawn → race.inner.Drained spawn) ∧
      (race.inner.tasks.lookup (RunnerInner.slot kind spawn) = none →
        spawn.factory ∈ race.inner.factories ∨ kind.label spawn.factory ∈ race.aborting kind)

-- A removal aborts no drain of a factory that was added again in between.
def AdvanceAllowed (inRuntime : Bool) : RunnerActivity Factory → Prop
  | .spawning spawn stage _ => race.SpawnAllowed kind inRuntime spawn stage
  | .removing name => ∀ drain ∈ race.inner.drains, drain.running = true →
      kind.named name (kind.label drain.spawn.factory) = true → race.inner.Wanted kind drain.spawn →
      drain.spawn ∈ race.owing
  | .created _ _ => True
  | .added _ => True
  | .looping _ => True
  | .finished _ => True

-- No removal leaves a shorter ladder that accepts a live entry without a drain,
-- and a drain ends only after its entry has.
def Allowed : RunnerOp Factory → Prop
  | .removeNamed name => ∀ factory ∈ race.inner.factories, ∀ entry ∈ race.inner.registry.entries,
      kind.refuses race.inner.factories entry.1.1 = true →
      (shorter kind race.inner name).Wanted kind ⟨factory, entry.1, entry.2⟩ →
      race.inner.Drained ⟨factory, entry.1, entry.2⟩ ∨ ⟨factory, entry.1, entry.2⟩ ∈ race.owing
  | .driveReturns index => ∀ drain ∈ race.inner.drains[index]?, drain.running = true →
      ¬ race.inner.Wanted kind drain.spawn
  | .advance index inRuntime _ => ∀ activity ∈ race.activities[index]?, race.AdvanceAllowed kind inRuntime activity
  | .getOrCreate _ => True
  | .remove _ => True
  | .add _ => True

section Decidable

instance : Decidable race.Quiescent :=
  have ended : ∀ activity : RunnerActivity Factory, Decidable (∃ answer, activity = .finished answer)
    | .finished answer => isTrue ⟨answer, rfl⟩
    | .created _ _ => isFalse fun ⟨_, same⟩ => by cases same
    | .added _ => isFalse fun ⟨_, same⟩ => by cases same
    | .looping _ => isFalse fun ⟨_, same⟩ => by cases same
    | .spawning _ _ _ => isFalse fun ⟨_, same⟩ => by cases same
    | .removing _ => isFalse fun ⟨_, same⟩ => by cases same
  inferInstanceAs (Decidable (∀ activity ∈ race.activities, _))

variable [DecidableEq Factory]

instance (inner : RunnerInner Factory Label) (spawn : Spawn Factory) : Decidable (inner.Wanted kind spawn) :=
  inferInstanceAs (Decidable (_ ∧ _ ∧ _ ∧ _))

instance (inner : RunnerInner Factory Label) (spawn : Spawn Factory) : Decidable (inner.Drained spawn) :=
  inferInstanceAs (Decidable (_ ∈ _))

instance (rest : SpawnLoop Factory) (spawn : Spawn Factory) : Decidable (spawn ∈ rest.owes) :=
  match rest with
  | .entryCreated _ _ _ => inferInstanceAs (Decidable (_ ∧ _ ∧ _))
  | .factoryAdded _ _ => inferInstanceAs (Decidable (_ ∧ _))

instance (activity : RunnerActivity Factory) (spawn : Spawn Factory) : Decidable (spawn ∈ activity.owes) :=
  match activity with
  | .created _ _ => inferInstanceAs (Decidable (_ ∧ _))
  | .added _ => inferInstanceAs (Decidable (_ = _))
  | .looping rest => inferInstanceAs (Decidable (spawn ∈ rest.owes))
  | .spawning _ _ rest => inferInstanceAs (Decidable (_ = _ ∨ spawn ∈ rest.owes))
  | .removing _ => isFalse id
  | .finished _ => isFalse id

instance (spawn : Spawn Factory) : Decidable (spawn ∈ race.owing) :=
  inferInstanceAs (Decidable (∃ activity ∈ race.activities, spawn ∈ activity.owes))

instance (activity : RunnerActivity Factory) (label : Label) : Decidable (label ∈ activity.aborts kind) :=
  match activity with
  | .removing _ => inferInstanceAs (Decidable (_ = true))
  | .created _ _ => isFalse id
  | .added _ => isFalse id
  | .looping _ => isFalse id
  | .spawning _ _ _ => isFalse id
  | .finished _ => isFalse id

instance (label : Label) : Decidable (label ∈ race.aborting kind) :=
  inferInstanceAs (Decidable (∃ activity ∈ race.activities, label ∈ activity.aborts kind))

instance (inRuntime : Bool) (spawn : Spawn Factory) (stage : SpawnStage) :
    Decidable (race.SpawnAllowed kind inRuntime spawn stage) :=
  match stage with
  | .check => inferInstanceAs (Decidable (_ → _ → _))
  | .build => inferInstanceAs (Decidable (_ → _ → _))
  | .reserve => inferInstanceAs (Decidable ((_ → _ → _) ∧ (_ → _ ∨ _)))

instance (inRuntime : Bool) (activity : RunnerActivity Factory) :
    Decidable (race.AdvanceAllowed kind inRuntime activity) :=
  match activity with
  | .spawning spawn stage _ => inferInstanceAs (Decidable (race.SpawnAllowed kind inRuntime spawn stage))
  | .removing _ => inferInstanceAs (Decidable (∀ drain ∈ race.inner.drains, _ → _ → _ → _))
  | .created _ _ => isTrue trivial
  | .added _ => isTrue trivial
  | .looping _ => isTrue trivial
  | .finished _ => isTrue trivial

instance (op : RunnerOp Factory) : Decidable (race.Allowed kind op) :=
  match op with
  | .removeNamed _ => inferInstanceAs (Decidable (∀ factory ∈ race.inner.factories, ∀ entry ∈ race.inner.registry.entries,
      _ → _ → _))
  | .driveReturns index => inferInstanceAs (Decidable (∀ drain ∈ race.inner.drains[index]?, _ → _))
  | .advance index _ _ => inferInstanceAs (Decidable (∀ activity ∈ race.activities[index]?, _))
  | .getOrCreate _ => isTrue trivial
  | .remove _ => isTrue trivial
  | .add _ => isTrue trivial

end Decidable

end RunnerRace

theorem RunnerInner.drained_at (inner : RunnerInner Factory Label) (spawn : Spawn Factory) :
    inner.Drained spawn ↔ ∃ index : Nat, inner.drains[index]? = some ⟨spawn, true⟩ :=
  List.mem_iff_getElem?

namespace RunnerRace

variable [DecidableEq Label] {kind : RunnerKind Factory Label} {race : RunnerRace Factory Label}

theorem install_sound (factories : List Factory) : (install factories : RunnerRace Factory Label).Sound kind where
  handled := by
    refine ⟨fun place index found => ?_, fun index drain here => ?_⟩
    · cases found
    · cases here
  kept := by
    intro drain member
    cases member
  covered := by
    rintro spawn ⟨_, live, _⟩
    cases live

omit [DecidableEq Label] in
theorem push_owing (inner : RunnerInner Factory Label) (activity : RunnerActivity Factory) :
    (race.push inner activity).owing = race.owing ∪ activity.owes :=
  Tasks.owed_append _ _ _

omit [DecidableEq Label] in
theorem push_aborting (inner : RunnerInner Factory Label) (activity : RunnerActivity Factory) :
    (race.push inner activity).aborting kind = race.aborting kind ∪ activity.aborts kind :=
  Tasks.owed_append _ _ _

-- A new activity takes nothing off what is pending.
theorem kept_pushed (inner : RunnerInner Factory Label) (activity : RunnerActivity Factory) (sound : race.Sound kind)
    (drain : Drain Factory) (member : drain ∈ race.inner.drains) (running : drain.running = true) :
    drain.spawn.factory ∈ race.inner.factories ∨
      kind.label drain.spawn.factory ∈ (race.push inner activity).aborting kind := by
  rw [push_aborting]
  exact (sound.kept drain member running).imp_right fun pending => .inl pending

omit [DecidableEq Label] in
theorem covered_pushed (inner : RunnerInner Factory Label) (activity : RunnerActivity Factory) (spawn : Spawn Factory)
    (covered : race.inner.Drained spawn ∨ spawn ∈ race.owing) :
    race.inner.Drained spawn ∨ spawn ∈ (race.push inner activity).owing := by
  rw [push_owing]
  exact covered.imp_right fun owed => .inl owed

theorem get_or_create_sound (key : SourceKey) (sound : race.Sound kind) :
    (step kind race (.getOrCreate key)).Sound kind := by
  rw [step]
  cases found : race.inner.registry.lookup key with
  | some source => exact sound
  | none =>
      refine ⟨⟨sound.handled.recorded, sound.handled.held⟩, kept_pushed _ _ sound, fun spawn wanted => ?_⟩
      obtain ⟨registered, live, accepted⟩ := wanted
      simp only [push, Table.lookup_insert_eq] at live
      by_cases isNew : spawn.key = key
      · rw [if_pos isNew] at live
        rw [push_owing]
        exact .inr (.inr ⟨isNew, (Option.some.inj live).symm⟩)
      · rw [if_neg isNew] at live
        exact covered_pushed _ _ spawn (sound.covered spawn ⟨registered, live, accepted⟩)

theorem remove_sound (key : SourceKey) (sound : race.Sound kind) : (step kind race (.remove key)).Sound kind := by
  refine ⟨⟨sound.handled.recorded, sound.handled.held⟩, sound.kept, fun spawn wanted => ?_⟩
  obtain ⟨registered, live, accepted⟩ := wanted
  simp only [step, Table.lookup_erase_eq] at live
  split at live
  · cases live
  · exact sound.covered spawn ⟨registered, live, accepted⟩

theorem add_sound (factory : Factory) (sound : race.Sound kind) : (step kind race (.add factory)).Sound kind := by
  rw [step]
  split
  · refine ⟨sound.handled, kept_pushed _ _ sound, fun spawn wanted => ?_⟩
    exact covered_pushed _ _ spawn (sound.covered spawn wanted)
  · refine ⟨⟨sound.handled.recorded, sound.handled.held⟩, ?_, fun spawn wanted => ?_⟩
    · intro drain member running
      exact (kept_pushed _ _ sound drain member running).imp_left fun registered => List.mem_append_left _ registered
    · obtain ⟨registered, live, notRefused, builds⟩ := wanted
      simp only [push, RunnerKind.refuses, List.any_append, Bool.or_eq_false_iff] at notRefused
      rcases List.mem_append.mp registered with before | isNew
      · exact covered_pushed _ _ spawn (sound.covered spawn ⟨before, live, notRefused.1, builds⟩)
      · rw [push_owing]
        exact .inr (.inr (List.mem_singleton.mp isNew))

theorem remove_named_sound (name : String) (sound : race.Sound kind) (allowed : race.Allowed kind (.removeNamed name)) :
    (step kind race (.removeNamed name)).Sound kind := by
  refine ⟨⟨sound.handled.recorded, sound.handled.held⟩, ?_, ?_⟩
  · intro drain member running
    rw [step, push_aborting]
    rcases sound.kept drain member running with registered | pending
    · by_cases hit : kind.named name (kind.label drain.spawn.factory) = true
      · exact .inr (.inr hit)
      · exact .inl (List.mem_filter.mpr ⟨registered, by simpa using hit⟩)
    · exact .inr (.inl pending)
  · intro spawn wanted
    have covered : race.inner.Drained spawn ∨ spawn ∈ race.owing := by
      by_cases refused : kind.refuses race.inner.factories spawn.key.1 = true
      · have registered := List.mem_of_mem_filter wanted.1
        exact allowed spawn.factory registered ⟨spawn.key, spawn.source⟩ (AList.mem_lookup_iff.mp wanted.2.1) refused wanted
      · obtain ⟨registered, live, _, builds⟩ := wanted
        refine sound.covered spawn ⟨List.mem_of_mem_filter registered, live, ?_, builds⟩
        exact Bool.eq_false_iff.mpr refused
    exact covered_pushed _ _ spawn covered

theorem drive_returns_sound (index : Nat) (sound : race.Sound kind) (allowed : race.Allowed kind (.driveReturns index)) :
    (step kind race (.driveReturns index)).Sound kind := by
  refine ⟨race.inner.stop_handled kind index sound.handled, ?_, ?_⟩
  · intro drain member running
    obtain ⟨place, here⟩ := List.mem_iff_getElem?.mp member
    rw [step, RunnerInner.stop_at] at here
    split at here
    · obtain ⟨before, _, rfl⟩ := Option.map_eq_some_iff.mp here
      cases running
    · exact sound.kept drain (List.mem_of_getElem? here) running
  · intro spawn wanted
    refine (sound.covered spawn wanted).imp_left fun drained => ?_
    obtain ⟨place, here⟩ := (race.inner.drained_at spawn).mp drained
    refine ((race.inner.stop index).drained_at spawn).mpr ⟨place, ?_⟩
    have other : index ≠ place := by
      rintro rfl
      exact allowed _ here rfl wanted
    rw [RunnerInner.stop_at, if_neg other, here]

-- A section that leaves the tables alone and takes over what its activity owed.
theorem sound_of_quiet (index : Nat) (old new : RunnerActivity Factory) (sound : race.Sound kind)
    (here : race.activities[index]? = some old) (sameAborts : new.aborts kind = old.aborts kind)
    (pays : ∀ spawn ∈ old.owes, race.inner.Wanted kind spawn → race.inner.Drained spawn ∨ spawn ∈ new.owes) :
    (RunnerRace.mk race.inner (race.activities.set index new)).Sound kind := by
  refine ⟨sound.handled, ?_, ?_⟩
  · rw [aborting, Tasks.owed_unchanged _ _ index old new here sameAborts]
    exact sound.kept
  · intro spawn wanted
    rcases sound.covered spawn wanted with drained | owed
    · exact .inl drained
    rcases Tasks.owed_subset_set _ _ index old new here owed with own | others
    · exact (pays spawn own wanted).imp_right fun now => Tasks.new_owed _ _ index old new here now
    · exact .inr others

omit [DecidableEq Label] in
theorem next_owes (registry : Table SourceKey Nat) (pick : Nat) (rest : SpawnLoop Factory) (spawn : Spawn Factory)
    (owed : spawn ∈ rest.owes) (live : registry.lookup spawn.key = some spawn.source) :
    spawn ∈ (rest.next registry pick).owes := by
  cases rest with
  | entryCreated key source factories =>
      obtain ⟨member, rfl, rfl⟩ := owed
      cases factories with
      | nil => cases member
      | cons first factories =>
          rcases List.mem_cons.mp member with rfl | later
          · exact .inl rfl
          · exact .inr ⟨later, rfl, rfl⟩
  | factoryAdded factory keys =>
      obtain ⟨rfl, member⟩ := owed
      cases keys with
      | nil => cases member
      | cons first keys =>
          by_cases picked : spawn.key = (first :: keys).getD pick first
          · rw [SpawnLoop.next, ← picked, live]
            exact .inl rfl
          · have later : spawn.key ∈ (first :: keys).erase ((first :: keys).getD pick first) :=
              (List.mem_erase_of_ne picked).mpr member
            rw [SpawnLoop.next]
            cases registry.lookup ((first :: keys).getD pick first) with
            | none => exact ⟨rfl, later⟩
            | some source => exact .inr ⟨rfl, later⟩

omit [DecidableEq Label] in
theorem next_aborts (registry : Table SourceKey Nat) (pick : Nat) (rest : SpawnLoop Factory) :
    (rest.next registry pick).aborts kind = ∅ := by
  cases rest with
  | entryCreated key source factories => cases factories <;> rfl
  | factoryAdded factory keys =>
      cases keys with
      | nil => rfl
      | cons first keys =>
          rw [SpawnLoop.next]
          cases registry.lookup ((first :: keys).getD pick first) <;> rfl

-- `spawn_for` goes on, gives up on what is not wanted or drained already, or
-- fills a vacant slot.
theorem spawn_for_cases (inRuntime : Bool) (spawn : Spawn Factory) (stage : SpawnStage)
    (allowed : race.SpawnAllowed kind inRuntime spawn stage) :
    (∃ later, race.inner.spawnFor kind inRuntime spawn stage = (race.inner, some later)) ∨
    (race.inner.spawnFor kind inRuntime spawn stage = (race.inner, none) ∧
      (race.inner.Wanted kind spawn → race.inner.Drained spawn)) ∨
    (race.inner.spawnFor kind inRuntime spawn stage = (race.inner.reserve kind spawn, none) ∧
      race.inner.tasks.lookup (RunnerInner.slot kind spawn) = none ∧
      (spawn.factory ∈ race.inner.factories ∨ kind.label spawn.factory ∈ race.aborting kind)) := by
  cases stage with
  | check =>
      rw [RunnerInner.spawnFor]
      cases found : race.inner.tasks.lookup (RunnerInner.slot kind spawn) with
      | none => exact .inl ⟨.build, rfl⟩
      | some held => exact .inr (.inl ⟨rfl, allowed (by rw [found]; simp)⟩)
  | build =>
      rw [RunnerInner.spawnFor]
      split
      · rename_i refused
        refine .inr (.inl ⟨rfl, fun wanted => ?_⟩)
        rw [wanted.2.2.1] at refused
        cases refused
      split
      · rename_i optsOut
        refine .inr (.inl ⟨rfl, fun wanted => ?_⟩)
        rw [wanted.2.2.2] at optsOut
        cases optsOut
      split
      · rename_i outside
        exact .inr (.inl ⟨rfl, allowed outside⟩)
      · exact .inl ⟨.reserve, rfl⟩
  | reserve =>
      rw [RunnerInner.spawnFor]
      cases found : race.inner.tasks.lookup (RunnerInner.slot kind spawn) with
      | none => exact .inr (.inr ⟨rfl, rfl, allowed.2 found⟩)
      | some held => exact .inr (.inl ⟨rfl, allowed.1 (by rw [found]; simp)⟩)

theorem reserve_sound (index : Nat) (spawn : Spawn Factory) (stage : SpawnStage) (rest : SpawnLoop Factory)
    (sound : race.Sound kind) (here : race.activities[index]? = some (.spawning spawn stage rest))
    (vacant : race.inner.tasks.lookup (RunnerInner.slot kind spawn) = none)
    (known : spawn.factory ∈ race.inner.factories ∨ kind.label spawn.factory ∈ race.aborting kind) :
    (RunnerRace.mk (race.inner.reserve kind spawn) (race.activities.set index (.looping rest))).Sound kind := by
  refine ⟨race.inner.reserve_handled kind spawn sound.handled vacant, ?_, ?_⟩
  · rw [aborting, Tasks.owed_unchanged _ _ index _ (.looping rest) here rfl]
    intro drain member running
    rcases List.mem_append.mp member with before | isNew
    · exact sound.kept drain before running
    · obtain rfl := List.mem_singleton.mp isNew
      exact known
  · intro other wanted
    rcases sound.covered other wanted with drained | owed
    · exact .inl (List.mem_append_left _ drained)
    rcases Tasks.owed_subset_set _ _ index _ (.looping rest) here owed with own | others
    · rcases own with rfl | later
      · exact .inl (List.mem_append_right _ (List.mem_singleton.mpr rfl))
      · exact .inr (Tasks.new_owed _ _ index _ _ here later)
    · exact .inr others

theorem abort_named_sound (index : Nat) (name : String) (answer : RunnerAnswer) (sound : race.Sound kind)
    (here : race.activities[index]? = some (.removing name)) (allowed : race.AdvanceAllowed kind true (.removing name)) :
    (RunnerRace.mk (race.inner.abortNamed kind name).1 (race.activities.set index (.finished answer))).Sound kind := by
  refine ⟨race.inner.abort_named_handled kind name sound.handled, ?_, ?_⟩
  · intro drain member running
    obtain ⟨place, after⟩ := List.mem_iff_getElem?.mp member
    rw [RunnerInner.abort_named_at] at after
    obtain ⟨before, there, rfl⟩ := Option.map_eq_some_iff.mp after
    split at running
    · cases running
    · rename_i spared
      rw [if_neg spared]
      rw [race.inner.dropped_iff kind name place before sound.handled there running] at spared
      refine (sound.kept before (List.mem_of_getElem? there) running).imp_right fun pending => ?_
      rcases Tasks.owed_subset_set _ _ index _ (.finished answer) here pending with own | others
      · exact absurd own spared
      · exact others
  · intro spawn wanted
    have owing : RunnerRace.owing ⟨(race.inner.abortNamed kind name).1, race.activities.set index (.finished answer)⟩ =
        race.owing := Tasks.owed_unchanged _ _ index _ _ here rfl
    rw [owing]
    rcases sound.covered spawn wanted with drained | owed
    · obtain ⟨place, there⟩ := (race.inner.drained_at spawn).mp drained
      by_cases hit : kind.named name (kind.label spawn.factory) = true
      · exact .inr (allowed ⟨spawn, true⟩ drained rfl hit wanted)
      · refine .inl (((race.inner.abortNamed kind name).1.drained_at spawn).mpr ⟨place, ?_⟩)
        rw [RunnerInner.abort_named_at, there, Option.map_some, if_neg]
        rw [race.inner.dropped_iff kind name place _ sound.handled there rfl]
        exact hit
    · exact .inr owed

theorem advance_sound (index : Nat) (inRuntime : Bool) (pick : Nat) (sound : race.Sound kind)
    (allowed : race.Allowed kind (.advance index inRuntime pick)) :
    (step kind race (.advance index inRuntime pick)).Sound kind := by
  rw [step]
  cases here : race.activities[index]? with
  | none => exact sound
  | some activity =>
      have mayGo := allowed activity here
      cases activity with
      | created key source =>
          refine sound_of_quiet index _ _ sound here rfl fun spawn owed wanted => ?_
          exact .inr ⟨wanted.1, owed⟩
      | added factory =>
          refine sound_of_quiet index _ _ sound here rfl fun spawn owed wanted => ?_
          exact .inr ⟨owed, AList.mem_keys.mp (Table.mem_of_lookup wanted.2.1)⟩
      | looping rest =>
          refine sound_of_quiet index _ _ sound here (next_aborts _ pick rest) fun spawn owed wanted => ?_
          exact .inr (next_owes _ pick rest spawn owed wanted.2.1)
      | spawning spawn stage rest =>
          rcases spawn_for_cases inRuntime spawn stage mayGo with ⟨later, eq⟩ | ⟨eq, settled⟩ | ⟨eq, vacant, known⟩
          · simp only [advance, eq]
            exact sound_of_quiet index _ _ sound here rfl fun other owed _ => .inr owed
          · simp only [advance, eq]
            refine sound_of_quiet index _ _ sound here rfl fun other owed wanted => ?_
            rcases owed with rfl | later
            · exact .inl (settled wanted)
            · exact .inr later
          · simp only [advance, eq]
            exact reserve_sound index spawn stage rest sound here vacant known
      | removing name => exact abort_named_sound index name _ sound here mayGo
      | finished answer => exact sound_of_quiet index _ _ sound here rfl fun spawn owed _ => .inr owed

theorem step_sound (op : RunnerOp Factory) (sound : race.Sound kind) (allowed : race.Allowed kind op) :
    (step kind race op).Sound kind := by
  cases op with
  | getOrCreate key => exact get_or_create_sound key sound
  | remove key => exact remove_sound key sound
  | add factory => exact add_sound factory sound
  | removeNamed name => exact remove_named_sound name sound allowed
  | driveReturns index => exact drive_returns_sound index sound allowed
  | advance index inRuntime pick => exact advance_sound index inRuntime pick sound allowed

theorem run_sound (kind : RunnerKind Factory Label) (factories : List Factory) (ops : List (RunnerOp Factory))
    (allowed : Machine.AllSteps (Allowed kind) (step kind) (install factories) ops) :
    (Machine.run (step kind) (install factories) ops).Sound kind := by
  have keeps : ∀ (race : RunnerRace Factory Label) (op : RunnerOp Factory), race.Sound kind → race.Allowed kind op →
      (step kind race op).Sound kind := fun _ op sound mayGo => step_sound op sound mayGo
  exact Machine.invariant_of_guarded keeps _ ops (install_sound factories) allowed

theorem quiescent_covers [DecidableEq Factory] (sound : race.Sound kind) (quiescent : race.Quiescent) :
    race.inner.Covers kind := by
  have nothingOwed : ∀ spawn, spawn ∉ race.owing := by
    rintro spawn ⟨activity, member, owed⟩
    obtain ⟨answer, rfl⟩ := quiescent activity member
    exact owed
  have nothingAborts : ∀ label, label ∉ race.aborting kind := by
    rintro label ⟨activity, member, aborts⟩
    obtain ⟨answer, rfl⟩ := quiescent activity member
    exact aborts
  refine ⟨fun spawn wanted => ?_, fun drain member running => ?_⟩
  · have drained := (sound.covered spawn wanted).resolve_right (nothingOwed spawn)
    obtain ⟨index, here⟩ := (race.inner.drained_at spawn).mp drained
    refine Tasks.filter_only _ _ index _ here (by simp) fun other found there running => ?_
    simp only [Bool.and_eq_true, decide_eq_true_eq] at running
    obtain ⟨⟨isRunning, sameFactory⟩, sameKey⟩ := running
    have sameSlot : RunnerInner.slot kind found.spawn = RunnerInner.slot kind spawn := by
      rw [RunnerInner.slot, RunnerInner.slot, sameFactory, sameKey]
    have mine := sound.handled.held index _ here rfl
    have theirs := sound.handled.held other found there isRunning
    rw [sameSlot, mine] at theirs
    exact (Option.some.inj theirs).symm
  · exact (sound.kept drain member running).resolve_right (nothingAborts _)

end RunnerRace

theorem drains_cover_live_entries {Transcoder Agent : Type} [DecidableEq Transcoder] [DecidableEq Agent]
    (transcoders : TranscoderFactory Transcoder) (agents : AgentFactory Agent) :
    (∀ (ladder : List Transcoder) (ops : List (RunnerOp Transcoder)),
      Machine.AllSteps (RunnerRace.Allowed transcoders.runner) (RunnerRace.step transcoders.runner) (.install ladder) ops →
      (Machine.run (RunnerRace.step transcoders.runner) (.install ladder) ops).Quiescent →
      (Machine.run (RunnerRace.step transcoders.runner) (.install ladder) ops).inner.Covers transcoders.runner) ∧
    (∀ (factories : List Agent) (ops : List (RunnerOp Agent)),
      Machine.AllSteps (RunnerRace.Allowed agents.runner) (RunnerRace.step agents.runner) (.install factories) ops →
      (Machine.run (RunnerRace.step agents.runner) (.install factories) ops).Quiescent →
      (Machine.run (RunnerRace.step agents.runner) (.install factories) ops).inner.Covers agents.runner) := by
  refine ⟨fun ladder ops allowed quiescent => ?_, fun factories ops allowed quiescent => ?_⟩
  · exact RunnerRace.quiescent_covers (RunnerRace.run_sound _ ladder ops allowed) quiescent
  · exact RunnerRace.quiescent_covers (RunnerRace.run_sound _ factories ops allowed) quiescent

def videoEncoder : TranscoderFactory (String × String) where
  name := Prod.fst
  rendition := Prod.snd
  build _ context := context.track == "0.mp4"

def captions : AgentFactory String where
  name := id
  build _ context := context.track == "1.mp4"

def demoVideo : SourceKey := ("live/demo", "0.mp4")

def demoAudio : SourceKey := ("live/demo", "1.mp4")

-- A rendition joins the ladder under a live source and leaves it again.
def ladderEdits : List (RunnerOp (String × String)) :=
  .getOrCreate demoVideo :: List.replicate 6 (.advance 0 true 0) ++
    .add ("software", "480p") :: List.replicate 6 (.advance 1 true 0) ++ [.removeNamed "480p", .advance 2 true 0]

def agentEdits : List (RunnerOp String) :=
  .getOrCreate demoAudio :: List.replicate 3 (.advance 0 true 0) ++
    .add "captions" :: List.replicate 6 (.advance 1 true 0)

theorem edited_ladders_covered :
    (Machine.run (RunnerRace.step videoEncoder.runner) (.install [("software", "720p")]) ladderEdits).inner.Covers
      videoEncoder.runner ∧
    (Machine.run (RunnerRace.step captions.runner) (.install []) agentEdits).inner.Covers captions.runner :=
  have both := drains_cover_live_entries videoEncoder captions
  ⟨both.1 [("software", "720p")] ladderEdits (by decide) (by decide), both.2 [] agentEdits (by decide) (by decide)⟩

-- A session ends and its name is published again.
def republished : List (RunnerOp (String × String)) :=
  .getOrCreate demoVideo :: List.replicate 6 (.advance 0 true 0) ++
    [.remove demoVideo, .driveReturns 0, .getOrCreate demoVideo] ++ List.replicate 4 (.advance 1 true 0)

theorem republished_source_undrained :
    (Machine.run (RunnerRace.step videoEncoder.runner) (.install [("software", "720p")]) republished).Quiescent ∧
    ¬ (Machine.run (RunnerRace.step videoEncoder.runner) (.install [("software", "720p")]) republished).inner.Covers
        videoEncoder.runner := by
  refine ⟨by decide, fun covers => ?_⟩
  have drained := covers.entries ⟨("software", "720p"), demoVideo, 1⟩ (by decide)
  exact absurd drained (by decide)

-- The snapshot of a callback outlives the removal of its factory.
example : ¬ (Machine.run (RunnerRace.step videoEncoder.runner) (.install [("software", "720p")])
    ([.getOrCreate demoVideo, .advance 0 true 0, .removeNamed "720p", .advance 1 true 0] ++
      List.replicate 5 (.advance 0 true 0))).inner.Covers videoEncoder.runner := by
  intro covers
  have registered := covers.removed ⟨⟨("software", "720p"), demoVideo, 0⟩, true⟩ (by decide) rfl
  exact absurd registered (by decide)

end Lvqr
