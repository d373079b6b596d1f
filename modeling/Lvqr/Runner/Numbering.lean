import Lvqr.Runner.Drains
import Mathlib.Tactic.Common

set_option autoImplicit false

-- Broadcasters are numbered in the order of their creation, and whatever mentions
-- a number means the entry it was created for.
namespace Lvqr

variable {Factory Label : Type}

def SpawnLoop.mentions : SpawnLoop Factory → Set (SourceKey × Nat)
  | .entryCreated key source _ => {(key, source)}
  | .factoryAdded _ _ => ∅

def RunnerActivity.mentions : RunnerActivity Factory → Set (SourceKey × Nat)
  | .created key source => {(key, source)}
  | .added _ => ∅
  | .looping rest => rest.mentions
  | .spawning spawn _ rest => insert (spawn.key, spawn.source) rest.mentions
  | .removing _ => ∅
  | .finished _ => ∅

namespace RunnerRace

variable [DecidableEq Label] (kind : RunnerKind Factory Label)

theorem spawn_for_outcomes (inner : RunnerInner Factory Label) (inRuntime : Bool) (spawn : Spawn Factory)
    (stage : SpawnStage) :
    inner.spawnFor kind inRuntime spawn stage = (inner, none) ∨
    (stage = .check ∧ inner.spawnFor kind inRuntime spawn stage = (inner, some .build)) ∨
    (stage = .build ∧ inner.spawnFor kind inRuntime spawn stage = (inner, some .reserve) ∧
      kind.refuses inner.factories spawn.key.1 = false ∧ kind.builds spawn = true ∧ inRuntime = true) ∨
    (stage = .reserve ∧ inner.spawnFor kind inRuntime spawn stage = (inner.reserve kind spawn, none)) := by
  cases stage with
  | check =>
      rw [RunnerInner.spawnFor]
      cases inner.tasks.lookup (RunnerInner.slot kind spawn) with
      | some _ => exact .inl rfl
      | none => exact .inr (.inl ⟨rfl, rfl⟩)
  | build =>
      rw [RunnerInner.spawnFor]
      split
      · exact .inl rfl
      rename_i accepted
      split
      · exact .inl rfl
      rename_i builds
      split
      · exact .inl rfl
      rename_i within
      exact .inr (.inr (.inl ⟨rfl, rfl, by simpa using accepted, by simpa using builds, by simpa using within⟩))
  | reserve =>
      rw [RunnerInner.spawnFor]
      cases inner.tasks.lookup (RunnerInner.slot kind spawn) with
      | some _ => exact .inl rfl
      | none => exact .inr (.inr (.inr ⟨rfl, rfl⟩))

-- What one section of an activity can do.
structure Advanced (inner : RunnerInner Factory Label) (inRuntime : Bool) (old new : RunnerActivity Factory)
    (after : RunnerInner Factory Label) : Prop where
  registry : after.registry = inner.registry
  broadcasters : after.broadcasters = inner.broadcasters
  mentions : ∀ mention ∈ new.mentions, mention ∈ old.mentions ∨ inner.registry.lookup mention.1 = some mention.2
  reserving : ∀ spawn rest, new = .spawning spawn .reserve rest → old = .spawning spawn .build rest ∧
    kind.refuses inner.factories spawn.key.1 = false ∧ kind.builds spawn = true ∧ inRuntime = true
  drains : ∀ drain ∈ after.drains, (∃ before ∈ inner.drains, before.spawn = drain.spawn) ∨
    ∃ rest, old = .spawning drain.spawn .reserve rest

omit [DecidableEq Label] in
theorem next_mentions (registry : Table SourceKey Nat) (pick : Nat) (rest : SpawnLoop Factory) :
    ∀ mention ∈ (rest.next registry pick).mentions,
      mention ∈ rest.mentions ∨ registry.lookup mention.1 = some mention.2 := by
  intro mention member
  cases rest with
  | entryCreated key source factories =>
      cases factories with
      | nil => exact member.elim
      | cons factory factories => exact .inl (member.elim id id)
  | factoryAdded factory keys =>
      cases keys with
      | nil => exact member.elim
      | cons first keys =>
          rw [SpawnLoop.next] at member
          cases found : registry.lookup ((first :: keys).getD pick first) with
          | none =>
              rw [found] at member
              exact member.elim
          | some source =>
              rw [found] at member
              rcases member with rfl | none
              · exact .inr found
              · exact none.elim

omit [DecidableEq Label] in
theorem next_checks (registry : Table SourceKey Nat) (pick : Nat) (rest later : SpawnLoop Factory)
    (spawn : Spawn Factory) (stage : SpawnStage) (spawning : rest.next registry pick = .spawning spawn stage later) :
    stage = .check := by
  cases rest with
  | entryCreated key source factories =>
      cases factories with
      | nil => cases spawning
      | cons factory factories =>
          cases spawning
          rfl
  | factoryAdded factory keys =>
      cases keys with
      | nil => cases spawning
      | cons first keys =>
          rw [SpawnLoop.next] at spawning
          cases found : registry.lookup ((first :: keys).getD pick first) with
          | none =>
              rw [found] at spawning
              cases spawning
          | some source =>
              rw [found] at spawning
              cases spawning
              rfl

theorem abort_named_spawns (inner : RunnerInner Factory Label) (name : String) (drain : Drain Factory)
    (member : drain ∈ (inner.abortNamed kind name).1.drains) : ∃ before ∈ inner.drains, before.spawn = drain.spawn := by
  rw [RunnerInner.abortNamed] at member
  obtain ⟨index, bound, rfl⟩ := List.mem_mapIdx.mp member
  refine ⟨inner.drains[index], List.getElem_mem bound, ?_⟩
  split <;> rfl

omit [DecidableEq Label] in
theorem stop_spawns (inner : RunnerInner Factory Label) (index : Nat) (drain : Drain Factory)
    (member : drain ∈ (inner.stop index).drains) : ∃ before ∈ inner.drains, before.spawn = drain.spawn := by
  obtain ⟨place, found⟩ := List.mem_iff_getElem?.mp member
  rw [RunnerInner.stop, List.getElem?_modify] at found
  obtain ⟨before, was, rfl⟩ := Option.map_eq_some_iff.mp found
  refine ⟨before, List.mem_of_getElem? was, ?_⟩
  split <;> rfl

theorem advance_advanced (inner : RunnerInner Factory Label) (inRuntime : Bool) (pick : Nat)
    (activity : RunnerActivity Factory) :
    Advanced kind inner inRuntime activity (advance kind inner inRuntime pick activity).2
      (advance kind inner inRuntime pick activity).1 := by
  have same : ∀ drain ∈ inner.drains, (∃ before ∈ inner.drains, before.spawn = drain.spawn) ∨
      ∃ rest, activity = .spawning drain.spawn .reserve rest := fun drain member => .inl ⟨drain, member, rfl⟩
  cases activity with
  | created key source => exact ⟨rfl, rfl, fun _ member => .inl member, nofun, same⟩
  | added factory => exact ⟨rfl, rfl, fun _ member => .inl member, nofun, same⟩
  | looping rest =>
      refine ⟨rfl, rfl, next_mentions inner.registry pick rest, ?_, same⟩
      intro spawn later spawning
      cases next_checks inner.registry pick rest later spawn .reserve spawning
  | removing name =>
      refine ⟨rfl, rfl, fun _ member => .inl member, nofun, ?_⟩
      exact fun drain member => .inl (abort_named_spawns kind inner name drain member)
  | finished answer => exact ⟨rfl, rfl, fun _ member => .inl member, nofun, same⟩
  | spawning spawn stage rest =>
      rw [advance]
      rcases spawn_for_outcomes kind inner inRuntime spawn stage with gone | ⟨_, went⟩ | ⟨built, went, passed⟩ | ⟨_, went⟩
      · rw [gone]
        exact ⟨rfl, rfl, fun _ member => .inl (.inr member), nofun, same⟩
      · rw [went]
        exact ⟨rfl, rfl, fun _ member => .inl member, nofun, same⟩
      · rw [went]
        refine ⟨rfl, rfl, fun _ member => .inl member, ?_, same⟩
        intro other later reserving
        cases reserving
        exact ⟨by rw [built], passed⟩
      · rename_i reserved
        rw [went]
        refine ⟨rfl, rfl, fun _ member => .inl (.inr member), nofun, ?_⟩
        intro drain member
        rcases List.mem_append.mp member with before | new
        · exact .inl ⟨drain, before, rfl⟩
        · obtain rfl := List.mem_singleton.mp new
          exact .inr ⟨rest, by rw [reserved]⟩

structure Numbered (names : List SourceKey) (race : RunnerRace Factory Label) : Prop where
  counted : names.length = race.inner.broadcasters
  registered : ∀ (key : SourceKey) (source : Nat), race.inner.registry.lookup key = some source →
    names[source]? = some key
  pending : ∀ mention ∈ Tasks.owed RunnerActivity.mentions race.activities, names[mention.2]? = some mention.1
  drained : ∀ drain ∈ race.inner.drains, names[drain.spawn.source]? = some drain.spawn.key

omit [DecidableEq Label] in
theorem install_numbered (factories : List Factory) : Numbered [] (install factories : RunnerRace Factory Label) where
  counted := rfl
  registered := nofun
  pending := by
    rintro mention ⟨activity, member, _⟩
    cases member
  drained := fun _ member => nomatch member

theorem named_before {names more : List SourceKey} {source : Nat} {key : SourceKey}
    (named : names[source]? = some key) : (names ++ more)[source]? = some key := by
  rw [List.getElem?_append_left (List.getElem?_eq_some_iff.mp named).1, named]

theorem named_below {names : List SourceKey} {source : Nat} {key : SourceKey} (named : names[source]? = some key) :
    source < names.length := (List.getElem?_eq_some_iff.mp named).1

omit [DecidableEq Label] in
theorem push_numbered (names : List SourceKey) (race : RunnerRace Factory Label) (inner : RunnerInner Factory Label)
    (activity : RunnerActivity Factory) (numbered : Numbered names race) (registry : inner.registry = race.inner.registry)
    (broadcasters : inner.broadcasters = race.inner.broadcasters) (drains : inner.drains = race.inner.drains)
    (silent : activity.mentions = ∅) : Numbered names (race.push inner activity) where
  counted := numbered.counted.trans broadcasters.symm
  registered := by
    intro key source found
    exact numbered.registered key source (registry ▸ found)
  pending := by
    intro mention member
    rw [push, Tasks.owed_append, silent, Set.union_empty] at member
    exact numbered.pending mention member
  drained := by
    intro drain member
    exact numbered.drained drain (drains ▸ member)

theorem get_or_create_numbered (names : List SourceKey) (race : RunnerRace Factory Label) (key : SourceKey)
    (numbered : Numbered names race) (vacant : race.inner.registry.lookup key = none) :
    Numbered (names ++ [key]) (step kind race (.getOrCreate key)) := by
  rw [step, vacant]
  have newest : (names ++ [key])[race.inner.broadcasters]? = some key := by
    rw [← numbered.counted, List.getElem?_concat_length]
  refine ⟨?_, ?_, ?_, fun drain member => named_before (numbered.drained drain member)⟩
  · rw [List.length_append, numbered.counted]
    rfl
  · intro other source found
    simp only [push, Table.lookup_insert_eq] at found
    split at found
    · rename_i own
      rw [own, ← Option.some.inj found]
      exact newest
    · exact named_before (numbered.registered other source found)
  · intro mention member
    rw [push, Tasks.owed_append] at member
    rcases member with before | rfl
    · exact named_before (numbered.pending mention before)
    · exact newest

theorem advance_numbered (names : List SourceKey) (race : RunnerRace Factory Label) (index pick : Nat)
    (inRuntime : Bool) (numbered : Numbered names race) :
    Numbered names (step kind race (.advance index inRuntime pick)) := by
  rw [step]
  cases found : race.activities[index]? with
  | none => exact numbered
  | some activity =>
      have advanced := advance_advanced kind race.inner inRuntime pick activity
      have owns := Tasks.old_owed RunnerActivity.mentions race.activities index activity found
      refine ⟨numbered.counted.trans advanced.broadcasters.symm, ?_, ?_, ?_⟩
      · intro key source registered
        exact numbered.registered key source (advanced.registry ▸ registered)
      · intro mention member
        rcases Tasks.owed_set_subset _ _ _ _ member with before | new
        · exact numbered.pending mention before
        · rcases advanced.mentions mention new with old | registered
          · exact numbered.pending mention (owns old)
          · exact numbered.registered mention.1 mention.2 registered
      · intro drain member
        rcases advanced.drains drain member with ⟨before, was, same⟩ | ⟨rest, spawning⟩
        · rw [← same]
          exact numbered.drained before was
        · refine numbered.pending (drain.spawn.key, drain.spawn.source) (owns ?_)
          rw [spawning]
          exact .inl rfl

-- A step numbers at most one entry more.
theorem step_numbered (names : List SourceKey) (race : RunnerRace Factory Label) (op : RunnerOp Factory)
    (numbered : Numbered names race) : ∃ more, Numbered (names ++ more) (step kind race op) := by
  cases op with
  | getOrCreate key =>
      cases found : race.inner.registry.lookup key with
      | none => exact ⟨[key], get_or_create_numbered kind names race key numbered found⟩
      | some source =>
          refine ⟨[], ?_⟩
          rw [step, found, List.append_nil]
          exact numbered
  | remove key =>
      refine ⟨[], ?_⟩
      rw [List.append_nil]
      refine ⟨numbered.counted, ?_, numbered.pending, numbered.drained⟩
      intro other source found
      rw [step, Table.lookup_erase_eq] at found
      split at found
      · cases found
      · exact numbered.registered other source found
  | add factory =>
      refine ⟨[], ?_⟩
      rw [List.append_nil, step]
      split
      · exact push_numbered names race _ _ numbered rfl rfl rfl rfl
      · exact push_numbered names race _ _ numbered rfl rfl rfl rfl
  | removeNamed name =>
      refine ⟨[], ?_⟩
      rw [List.append_nil]
      exact push_numbered names race _ _ numbered rfl rfl rfl rfl
  | driveReturns index =>
      refine ⟨[], ?_⟩
      rw [List.append_nil]
      refine ⟨numbered.counted, numbered.registered, numbered.pending, ?_⟩
      intro drain member
      obtain ⟨before, was, same⟩ := stop_spawns race.inner index drain member
      rw [← same]
      exact numbered.drained before was
  | advance index inRuntime pick =>
      refine ⟨[], ?_⟩
      rw [List.append_nil]
      exact advance_numbered kind names race index pick inRuntime numbered

-- Where a drain that is about to be spawned, or is spawned, was one step before.
theorem step_reserving (race : RunnerRace Factory Label) (op : RunnerOp Factory) (spawn : Spawn Factory)
    (rest : SpawnLoop Factory) (reserving : .spawning spawn .reserve rest ∈ (step kind race op).activities) :
    .spawning spawn .reserve rest ∈ race.activities ∨
      ∃ index inRuntime pick, op = .advance index inRuntime pick ∧
        race.activities[index]? = some (.spawning spawn .build rest) ∧
        kind.refuses race.inner.factories spawn.key.1 = false ∧ kind.builds spawn = true ∧ inRuntime = true := by
  have pushed : ∀ (inner : RunnerInner Factory Label) (activity : RunnerActivity Factory),
      activity ≠ .spawning spawn .reserve rest → .spawning spawn .reserve rest ∈ (race.push inner activity).activities →
      .spawning spawn .reserve rest ∈ race.activities := by
    intro inner activity other member
    rcases List.mem_append.mp member with before | new
    · exact before
    · exact absurd (List.mem_singleton.mp new).symm other
  cases op with
  | getOrCreate key =>
      rw [step] at reserving
      split at reserving
      · exact .inl reserving
      · exact .inl (pushed _ (.created key race.inner.broadcasters) nofun reserving)
  | remove key => exact .inl reserving
  | add factory =>
      rw [step] at reserving
      split at reserving
      · exact .inl (pushed _ (.finished (.added false)) nofun reserving)
      · exact .inl (pushed _ (.added factory) nofun reserving)
  | removeNamed name => exact .inl (pushed _ (.removing name) nofun reserving)
  | driveReturns index => exact .inl reserving
  | advance index inRuntime pick =>
      rw [step] at reserving
      cases found : race.activities[index]? with
      | none =>
          rw [found] at reserving
          exact .inl reserving
      | some activity =>
          rw [found] at reserving
          rcases List.mem_or_eq_of_mem_set reserving with before | new
          · exact .inl before
          · obtain ⟨was, passed⟩ := (advance_advanced kind race.inner inRuntime pick activity).reserving spawn rest new.symm
            exact .inr ⟨index, inRuntime, pick, rfl, by rw [found, was], passed⟩

theorem step_drains (race : RunnerRace Factory Label) (op : RunnerOp Factory) (drain : Drain Factory)
    (member : drain ∈ (step kind race op).inner.drains) :
    (∃ before ∈ race.inner.drains, before.spawn = drain.spawn) ∨
      ∃ rest, .spawning drain.spawn .reserve rest ∈ race.activities := by
  have same : drain ∈ race.inner.drains → ∃ before ∈ race.inner.drains, before.spawn = drain.spawn :=
    fun before => ⟨drain, before, rfl⟩
  cases op with
  | getOrCreate key =>
      rw [step] at member
      split at member
      · exact .inl (same member)
      · exact .inl (same member)
  | remove key => exact .inl (same member)
  | add factory =>
      rw [step] at member
      split at member
      · exact .inl (same member)
      · exact .inl (same member)
  | removeNamed name => exact .inl (same member)
  | driveReturns index => exact .inl (stop_spawns race.inner index drain member)
  | advance index inRuntime pick =>
      rw [step] at member
      cases found : race.activities[index]? with
      | none =>
          rw [found] at member
          exact .inl (same member)
      | some activity =>
          rw [found] at member
          rcases (advance_advanced kind race.inner inRuntime pick activity).drains drain member with before | ⟨rest, was⟩
          · exact .inl before
          · exact .inr ⟨rest, was ▸ List.mem_of_getElem? found⟩

end RunnerRace

end Lvqr
