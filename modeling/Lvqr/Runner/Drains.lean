import Mathlib.Tactic.Common
import Lvqr.Lib.Machine
import Lvqr.Lib.Table
import Lvqr.Lib.Tasks
import Lvqr.Lib.Text

set_option autoImplicit false

-- The drains of the transcode and the agent runner. Callbacks, ladder edits and
-- task-map edits interleave one atomic section at a time; a broadcaster is the
-- number of its creation, and a `JoinHandle` the place of its drain.
namespace Lvqr

abbrev SourceKey := String × String

-- What `spawn_for` is called with.
structure Spawn (Factory : Type) where
  factory : Factory
  key : SourceKey
  source : Nat
deriving DecidableEq, Repr

structure Drain (Factory : Type) where
  spawn : Spawn Factory
  running : Bool
deriving DecidableEq, Repr

def Drain.stopped {Factory : Type} (drain : Drain Factory) : Drain Factory := { drain with running := false }

-- Where the two runners differ. A removal takes a name and hits every label
-- that is `named` so; a registered factory `blocks` what may be its own output.
structure RunnerKind (Factory Label : Type) where
  label : Factory → Label
  named : String → Label → Bool
  blocks : Factory → String → Bool
  builds : Spawn Factory → Bool

def RunnerKind.refuses {Factory Label : Type} (kind : RunnerKind Factory Label) (factories : List Factory)
    (broadcast : String) : Bool :=
  factories.any fun factory => kind.blocks factory broadcast

-- `source` stands for the metadata that is read off the broadcaster.
structure TranscoderContext where
  broadcast : String
  track : String
  source : Nat
  rendition : String
deriving DecidableEq, Repr

-- The methods of the trait, over the type that implements it. A `RenditionSpec`
-- counts for its name alone.
structure TranscoderFactory (Factory : Type) where
  name : Factory → String
  rendition : Factory → String
  build : Factory → TranscoderContext → Bool

structure AgentContext where
  broadcast : String
  track : String
  source : Nat
deriving DecidableEq, Repr

structure AgentFactory (Factory : Type) where
  name : Factory → String
  build : Factory → AgentContext → Bool

def lastSegment (broadcast : String) : String :=
  match Text.rsplitOnce '/' broadcast.toList with
  | some (_, last) => String.ofList last
  | none => broadcast

def TranscoderFactory.runner {Factory : Type} (methods : TranscoderFactory Factory) :
    RunnerKind Factory (String × String) where
  label factory := (methods.name factory, methods.rendition factory)
  named rendition label := label.2 == rendition
  blocks factory broadcast := methods.rendition factory == lastSegment broadcast
  builds spawn :=
    methods.build spawn.factory ⟨spawn.key.1, spawn.key.2, spawn.source, methods.rendition spawn.factory⟩

def AgentFactory.runner {Factory : Type} (methods : AgentFactory Factory) : RunnerKind Factory String where
  label := methods.name
  named name label := label == name
  blocks _ _ := false
  builds spawn := methods.build spawn.factory ⟨spawn.key.1, spawn.key.2, spawn.source⟩

structure RunnerInner (Factory Label : Type) where
  registry : Table SourceKey Nat
  broadcasters : Nat
  factories : List Factory
  tasks : Table (Label × SourceKey) Nat
  drains : List (Drain Factory)

-- The sections of one `spawn_for`: the pre-check, the ladder and the build, and
-- the reservation under the shard lock.
inductive SpawnStage where
  | check
  | build
  | reserve
deriving DecidableEq, Repr

-- The loop around it: what is left of the callback's snapshot of factories, or
-- of the snapshot of keys a new factory visits.
inductive SpawnLoop (Factory : Type) where
  | entryCreated (key : SourceKey) (source : Nat) (factories : List Factory)
  | factoryAdded (factory : Factory) (keys : List SourceKey)
deriving DecidableEq, Repr

inductive RunnerAnswer where
  | notified
  | added (isNew : Bool)
  | aborted (count : Nat)
deriving DecidableEq, Repr

inductive RunnerActivity (Factory : Type) where
  | created (key : SourceKey) (source : Nat)
  | added (factory : Factory)
  | looping (rest : SpawnLoop Factory)
  | spawning (spawn : Spawn Factory) (stage : SpawnStage) (rest : SpawnLoop Factory)
  | removing (name : String)
  | finished (answer : RunnerAnswer)
deriving DecidableEq, Repr

namespace RunnerInner

variable {Factory Label : Type} [DecidableEq Label]

def slot (kind : RunnerKind Factory Label) (spawn : Spawn Factory) : Label × SourceKey :=
  (kind.label spawn.factory, spawn.key)

def reserve (kind : RunnerKind Factory Label) (inner : RunnerInner Factory Label) (spawn : Spawn Factory) :
    RunnerInner Factory Label :=
  { inner with
    tasks := inner.tasks.insert (slot kind spawn) inner.drains.length
    drains := inner.drains ++ [⟨spawn, true⟩] }

-- `none` is the return of `spawn_for`. Whether a tokio runtime is at hand is the
-- calling thread's affair.
def spawnFor (kind : RunnerKind Factory Label) (inner : RunnerInner Factory Label) (inRuntime : Bool)
    (spawn : Spawn Factory) : SpawnStage → RunnerInner Factory Label × Option SpawnStage
  | .check =>
      match inner.tasks.lookup (slot kind spawn) with
      | some _ => (inner, none)
      | none => (inner, some .build)
  | .build =>
      if kind.refuses inner.factories spawn.key.1 then (inner, none)
      else if kind.builds spawn = false then (inner, none)
      else if inRuntime = false then (inner, none)
      else (inner, some .reserve)
  | .reserve =>
      match inner.tasks.lookup (slot kind spawn) with
      | some _ => (inner, none)
      | none => (inner.reserve kind spawn, none)

def stop (inner : RunnerInner Factory Label) (index : Nat) : RunnerInner Factory Label :=
  { inner with drains := inner.drains.modify index Drain.stopped }

-- `tasks.retain`, which aborts what it drops.
def abortNamed (kind : RunnerKind Factory Label) (inner : RunnerInner Factory Label) (name : String) :
    RunnerInner Factory Label × Nat :=
  let dropped := (inner.tasks.keys.filter fun slot => kind.named name slot.1).filterMap inner.tasks.lookup
  ({ inner with
      tasks := inner.tasks.retain fun slot => !kind.named name slot.1
      drains := inner.drains.mapIdx fun index drain => if index ∈ dropped then drain.stopped else drain },
    dropped.length)

end RunnerInner

-- The order in which a map gives its keys is the environment's: `pick`.
def SpawnLoop.next {Factory : Type} (registry : Table SourceKey Nat) (pick : Nat) :
    SpawnLoop Factory → RunnerActivity Factory
  | .entryCreated _ _ [] => .finished .notified
  | .entryCreated key source (factory :: factories) =>
      .spawning ⟨factory, key, source⟩ .check (.entryCreated key source factories)
  | .factoryAdded _ [] => .finished (.added true)
  | .factoryAdded factory (first :: keys) =>
      let key := (first :: keys).getD pick first
      let rest := SpawnLoop.factoryAdded factory ((first :: keys).erase key)
      match registry.lookup key with
      | some source => .spawning ⟨factory, key, source⟩ .check rest
      | none => .looping rest

structure RunnerRace (Factory Label : Type) where
  inner : RunnerInner Factory Label
  activities : List (RunnerActivity Factory)

inductive RunnerOp (Factory : Type) where
  | getOrCreate (key : SourceKey)
  | remove (key : SourceKey)
  | add (factory : Factory)
  | removeNamed (name : String)
  | driveReturns (index : Nat)
  | advance (index : Nat) (inRuntime : Bool) (pick : Nat)
deriving DecidableEq, Repr

namespace RunnerRace

variable {Factory Label : Type} [DecidableEq Label]

def install (factories : List Factory) : RunnerRace Factory Label := ⟨⟨∅, 0, factories, ∅, []⟩, []⟩

def advance (kind : RunnerKind Factory Label) (inner : RunnerInner Factory Label) (inRuntime : Bool) (pick : Nat) :
    RunnerActivity Factory → RunnerInner Factory Label × RunnerActivity Factory
  | .created key source => (inner, .looping (.entryCreated key source inner.factories))
  | .added factory => (inner, .looping (.factoryAdded factory inner.registry.keys))
  | .looping rest => (inner, rest.next inner.registry pick)
  | .spawning spawn stage rest =>
      match inner.spawnFor kind inRuntime spawn stage with
      | (inner, some stage) => (inner, .spawning spawn stage rest)
      | (inner, none) => (inner, .looping rest)
  | .removing name =>
      let (inner, count) := inner.abortNamed kind name
      (inner, .finished (.aborted count))
  | .finished answer => (inner, .finished answer)

def push (race : RunnerRace Factory Label) (inner : RunnerInner Factory Label)
    (activity : RunnerActivity Factory) : RunnerRace Factory Label :=
  ⟨inner, race.activities ++ [activity]⟩

def shorter (kind : RunnerKind Factory Label) (inner : RunnerInner Factory Label) (name : String) :
    RunnerInner Factory Label :=
  { inner with factories := inner.factories.filter fun factory => !kind.named name (kind.label factory) }

def step (kind : RunnerKind Factory Label) (race : RunnerRace Factory Label) : RunnerOp Factory → RunnerRace Factory Label
  | .getOrCreate key =>
      match race.inner.registry.lookup key with
      | some _ => race
      | none =>
          race.push { race.inner with
            registry := race.inner.registry.insert key race.inner.broadcasters
            broadcasters := race.inner.broadcasters + 1 } (.created key race.inner.broadcasters)
  | .remove key => ⟨{ race.inner with registry := race.inner.registry.erase key }, race.activities⟩
  | .add factory =>
      if race.inner.factories.any fun other => kind.label other = kind.label factory then
        race.push race.inner (.finished (.added false))
      else race.push { race.inner with factories := race.inner.factories ++ [factory] } (.added factory)
  | .removeNamed name => race.push (shorter kind race.inner name) (.removing name)
  | .driveReturns index => ⟨race.inner.stop index, race.activities⟩
  | .advance index inRuntime pick =>
      match race.activities[index]? with
      | none => race
      | some activity =>
          let (inner, next) := advance kind race.inner inRuntime pick activity
          ⟨inner, race.activities.set index next⟩

end RunnerRace

end Lvqr

-- The task map against the drains that were ever spawned.
namespace Lvqr.RunnerInner

variable {Factory Label : Type} [DecidableEq Label] (kind : RunnerKind Factory Label) (inner : RunnerInner Factory Label)

-- A task is recorded under its own slot, and a running drain is recorded.
structure Handled : Prop where
  recorded : ∀ (place : Label × SourceKey) (index : Nat), inner.tasks.lookup place = some index →
    ∃ drain, inner.drains[index]? = some drain ∧ slot kind drain.spawn = place
  held : ∀ (index : Nat) (drain : Drain Factory), inner.drains[index]? = some drain → drain.running = true →
    inner.tasks.lookup (slot kind drain.spawn) = some index

theorem reserve_handled (spawn : Spawn Factory) (handled : inner.Handled kind)
    (vacant : inner.tasks.lookup (slot kind spawn) = none) : (inner.reserve kind spawn).Handled kind where
  recorded := by
    intro place index found
    rw [reserve, Table.lookup_insert_eq] at found
    by_cases own : place = slot kind spawn
    · rw [if_pos own] at found
      obtain rfl := Option.some.inj found
      exact ⟨⟨spawn, true⟩, by simp [reserve], own.symm⟩
    · rw [if_neg own] at found
      obtain ⟨drain, here, same⟩ := handled.recorded place index found
      refine ⟨drain, ?_, same⟩
      rw [reserve, List.getElem?_append_left (List.getElem?_eq_some_iff.mp here).1, here]
  held := by
    intro index drain here running
    rw [reserve, Table.lookup_insert_eq]
    rw [reserve, List.getElem?_append] at here
    by_cases old : index < inner.drains.length
    · rw [if_pos old] at here
      have found := handled.held index drain here running
      have other : slot kind drain.spawn ≠ slot kind spawn := by
        intro same
        rw [same, vacant] at found
        cases found
      rw [if_neg other, found]
    · rw [if_neg old, List.getElem?_singleton] at here
      split at here
      · obtain rfl := Option.some.inj here
        rw [if_pos rfl]
        congr 1
        omega
      · cases here

omit [DecidableEq Label] in
theorem stop_at (index other : Nat) : (inner.stop index).drains[other]? =
    if index = other then inner.drains[other]?.map Drain.stopped else inner.drains[other]? := by
  rw [stop, List.getElem?_modify]
  split
  · rfl
  · cases inner.drains[other]? <;> rfl

theorem stop_handled (index : Nat) (handled : inner.Handled kind) : (inner.stop index).Handled kind where
  recorded := by
    intro place other found
    obtain ⟨drain, here, same⟩ := handled.recorded place other found
    rw [stop_at, here]
    split
    · exact ⟨drain.stopped, rfl, same⟩
    · exact ⟨drain, rfl, same⟩
  held := by
    intro other drain here running
    rw [stop_at] at here
    split at here
    · obtain ⟨before, _, rfl⟩ := Option.map_eq_some_iff.mp here
      cases running
    · exact handled.held other drain here running

def dropped (name : String) : List Nat :=
  (inner.tasks.keys.filter fun slot => kind.named name slot.1).filterMap inner.tasks.lookup

theorem abort_named_at (name : String) (index : Nat) : (inner.abortNamed kind name).1.drains[index]? =
    inner.drains[index]?.map fun drain => if index ∈ inner.dropped kind name then drain.stopped else drain := by
  rw [abortNamed, List.getElem?_mapIdx]
  rfl

theorem dropped_iff (name : String) (index : Nat) (drain : Drain Factory) (handled : inner.Handled kind)
    (here : inner.drains[index]? = some drain) (running : drain.running = true) :
    index ∈ inner.dropped kind name ↔ kind.named name (kind.label drain.spawn.factory) = true := by
  rw [dropped, List.mem_filterMap]
  constructor
  · rintro ⟨place, member, found⟩
    obtain ⟨other, there, same⟩ := handled.recorded place index found
    obtain rfl := Option.some.inj (here.symm.trans there)
    rw [← same] at member
    exact (List.mem_filter.mp member).2
  · intro named
    have found := handled.held index drain here running
    refine ⟨slot kind drain.spawn, List.mem_filter.mpr ⟨?_, named⟩, found⟩
    exact AList.mem_keys.mp (Table.mem_of_lookup found)

theorem abort_named_handled (name : String) (handled : inner.Handled kind) :
    (inner.abortNamed kind name).1.Handled kind where
  recorded := by
    intro place index found
    rw [abortNamed, Table.lookup_retain] at found
    split at found
    · obtain ⟨drain, here, same⟩ := handled.recorded place index found
      rw [abort_named_at, here]
      refine ⟨_, rfl, ?_⟩
      split
      · exact same
      · exact same
    · cases found
  held := by
    intro index drain here running
    rw [abort_named_at] at here
    obtain ⟨before, there, rfl⟩ := Option.map_eq_some_iff.mp here
    split at running
    · cases running
    · rename_i spared
      rw [if_neg spared, abortNamed, Table.lookup_retain]
      have found := handled.held index before there running
      rw [dropped_iff kind inner name index before handled there running] at spared
      rw [found, if_pos]
      simpa [slot] using spared

end Lvqr.RunnerInner
