import Lvqr.Hls.Coherence
import Lvqr.Lib.Tasks

set_option autoImplicit false

-- Concurrent calls on one server. The builder lock is dropped before the cache
-- lock is taken, so a call is up to four atomic sections.
namespace Lvqr.Hls

open PlaylistBuilder

inductive Call where
  | pushChunkBytes (chunk : Cmaf.CmafChunk) (body : Bytes)
  | closePendingSegment
  | finalize
deriving DecidableEq, Repr

inductive CallTask where
  | called (call : Call)
  | storing (work : CacheWork)
  | coalescing (items : List CoalesceItem) (evicted : List String)
  | purging (evicted : List String)
  | finished
deriving DecidableEq, Repr

def builderSection (builder : PlaylistBuilder) : Call → PlaylistBuilder × CallTask
  | .pushChunkBytes chunk body =>
      match builder.pushSection chunk body with
      | (.error _, rejected) => (rejected, .finished)
      | (.ok work, released) => (released, .storing work)
  | .closePendingSegment =>
      let (released, work) := builder.closeSection
      (released, .coalescing work.coalesce work.purge)
  | .finalize =>
      let (released, work) := builder.finalizeSection
      (released, .coalescing work.coalesce work.purge)

namespace CallTask

def store : CallTask → Option (String × Bytes)
  | .storing work => work.store
  | _ => none

def stores (task : CallTask) : Set (String × Bytes) := {entry | task.store = some entry}

def coalesces : CallTask → Set CoalesceItem
  | .storing work => {item | item ∈ work.coalesce}
  | .coalescing items _ => {item | item ∈ items}
  | _ => ∅

def purges : CallTask → Set (List String)
  | .storing work => {work.purge}
  | .coalescing _ evicted => {evicted}
  | .purging evicted => {evicted}
  | _ => ∅

def evicted : CallTask → List String
  | .storing work => work.purge
  | .coalescing _ evicted => evicted
  | .purging evicted => evicted
  | _ => []

end CallTask

-- `bodies` and `evicted` are ghost state: the bytes pushed under each part URI
-- and every URI of a segment that left the window.
structure System where
  builder : PlaylistBuilder
  cache : ByteCache
  tasks : List CallTask
  bodies : String → Bytes
  evicted : List String

namespace System

def start (config : PlaylistBuilderConfig) (calls : List Call) : System where
  builder := .new config
  cache := fun _ => none
  tasks := calls.map .called
  bodies := fun _ => []
  evicted := []

def recordBody (bodies : String → Bytes) : CallTask → String → Bytes
  | .storing ⟨some (uri, body), _, _⟩ => Function.update bodies uri body
  | _ => bodies

def step (system : System) (index : Nat) : System :=
  match system.tasks[index]? with
  | none => system
  | some (.called call) =>
      let (builder, task) := builderSection system.builder call
      { system with
        builder := builder
        tasks := system.tasks.set index task
        bodies := recordBody system.bodies task
        evicted := system.evicted ++ task.evicted }
  | some (.storing work) =>
      { system with
        cache := storePart system.cache work.store
        tasks := system.tasks.set index (.coalescing work.coalesce work.purge) }
  | some (.coalescing items evicted) =>
      { system with
        cache := coalesceClosedSegments system.cache items
        tasks := system.tasks.set index (.purging evicted) }
  | some (.purging evicted) =>
      { system with
        cache := purgeEvictedUris system.cache evicted
        tasks := system.tasks.set index .finished }
  | some .finished => system

def Finished (system : System) : Prop := ∀ task ∈ system.tasks, task = .finished

instance (system : System) : Decidable system.Finished :=
  inferInstanceAs (Decidable (∀ task ∈ system.tasks, task = .finished))

structure Served (system : System) : Prop where
  whole : ∀ segment ∈ system.builder.manifest.segments,
    system.cache segment.uri = some (fullBody system.bodies (segment.parts.map Part.uri))
  gone : ∀ uri ∈ system.evicted, system.cache uri = none

def outstanding (system : System) : Outstanding where
  stores := Tasks.owed CallTask.stores system.tasks
  coalesces := Tasks.owed CallTask.coalesces system.tasks
  purges := Tasks.owed CallTask.purges system.tasks

-- The orders that are safe: a listed segment is coalesced only when all of its
-- parts are cached, and a purge waits for the stores of the URIs it removes.
def InOrder (system : System) (index : Nat) : Prop :=
  match system.tasks[index]? with
  | some (.coalescing items _) =>
      ∀ item ∈ items, ∀ segment ∈ system.builder.manifest.segments, item = segment.coalesceItem →
        ∀ uri ∈ item.partUris, system.cache uri ≠ none
  | some (.purging evicted) => ∀ task ∈ system.tasks, ∀ entry ∈ task.store, entry.1 ∉ evicted
  | _ => True

instance (system : System) (index : Nat) : Decidable (system.InOrder index) := by
  unfold InOrder
  split <;> infer_instance

def Sound (system : System) : Prop :=
  Coherent system.builder system.cache system.outstanding system.bodies {uri | uri ∈ system.evicted}

theorem idle_stores (task : CallTask) (idle : task.store = none) : task.stores = ∅ := by
  simp [CallTask.stores, idle]

theorem evicted_append (before after : List String) :
    {uri | uri ∈ before ++ after} = {uri | uri ∈ before} ∪ {uri | uri ∈ after} :=
  Set.ext fun _ => List.mem_append

theorem start_sound (config : PlaylistBuilderConfig) (calls : List Call) : (start config calls).Sound := by
  have nothing : (start config calls).outstanding = .none := by
    simp [outstanding, start, Tasks.owed, Outstanding.none, CallTask.stores, CallTask.store, CallTask.coalesces,
      CallTask.purges]
  unfold Sound
  rw [nothing]
  simpa [start] using new_coherent config fun _ => []

-- A builder section is where a call incurs its debts, and it incurs them at once.
theorem incurred_outstanding (system : System) (index : Nat) (call : Call) (task : CallTask) (work : CacheWork)
    (here : system.tasks[index]? = some (.called call)) (stores : task.store = work.store)
    (coalesces : task.coalesces = {item | item ∈ work.coalesce}) (purges : task.purges = {work.purge})
    (builder : PlaylistBuilder) (bodies : String → Bytes) (evicted : List String) :
    (System.mk builder system.cache (system.tasks.set index task) bodies evicted).outstanding =
      system.outstanding.add work := by
  simp only [outstanding, Outstanding.add]
  rw [Tasks.owed_incurred CallTask.stores _ _ _ _ here (idle_stores _ rfl),
    Tasks.owed_incurred CallTask.coalesces _ _ _ _ here rfl, Tasks.owed_incurred CallTask.purges _ _ _ _ here rfl,
    CallTask.stores, stores, coalesces, purges, Set.union_singleton]

theorem rejected_outstanding (system : System) (index : Nat) (call : Call)
    (here : system.tasks[index]? = some (.called call)) (builder : PlaylistBuilder) (bodies : String → Bytes)
    (evicted : List String) :
    (System.mk builder system.cache (system.tasks.set index .finished) bodies evicted).outstanding =
      system.outstanding := by
  simp only [outstanding]
  rw [Tasks.owed_unchanged CallTask.stores _ _ _ .finished here rfl,
    Tasks.owed_unchanged CallTask.coalesces _ _ _ .finished here rfl,
    Tasks.owed_unchanged CallTask.purges _ _ _ .finished here rfl]

theorem called_sound (system : System) (index : Nat) (call : Call)
    (here : system.tasks[index]? = some (.called call)) (sound : system.Sound) : (system.step index).Sound := by
  simp only [step, here]
  cases call with
  | pushChunkBytes chunk body =>
      by_cases accepts : system.builder.Accepts chunk
      · have pushed := push_section_accepted system.builder chunk body accepts
        obtain ⟨coherent, stored⟩ := push_section_coherent sound chunk body _ _ pushed
        simp only [builderSection, pushed, Sound]
        rw [incurred_outstanding system index _ _ _ here rfl rfl rfl, evicted_append]
        exact coherent
      · obtain ⟨error, failed⟩ := push_section_rejected system.builder chunk body accepts
        simp only [builderSection, failed, Sound]
        rw [rejected_outstanding system index _ here, evicted_append, show {uri | uri ∈ CallTask.evicted .finished} = ∅
          by simp [CallTask.evicted], Set.union_empty]
        exact sound
  | closePendingSegment =>
      have coherent := close_section_coherent sound
      simp only [builderSection, Sound]
      rw [incurred_outstanding system index _ _ system.builder.closeSection.2 here rfl rfl rfl, evicted_append]
      exact coherent
  | finalize =>
      have coherent := finalize_section_coherent sound
      simp only [builderSection, Sound]
      rw [incurred_outstanding system index _ _ system.builder.finalizeSection.2 here rfl rfl rfl, evicted_append]
      exact coherent

theorem storing_sound (system : System) (index : Nat) (work : CacheWork)
    (here : system.tasks[index]? = some (.storing work)) (sound : system.Sound) : (system.step index).Sound := by
  simp only [step, here, Sound]
  have coalesces := Tasks.owed_unchanged CallTask.coalesces system.tasks index _
    (.coalescing work.coalesce work.purge) here rfl
  have purges := Tasks.owed_unchanged CallTask.purges system.tasks index _
    (.coalescing work.coalesce work.purge) here rfl
  obtain ⟨smaller, covers⟩ := Tasks.owed_settled CallTask.stores system.tasks index _
    (.coalescing work.coalesce work.purge) here (idle_stores _ rfl)
  simp only [outstanding, coalesces, purges]
  cases entry : work.store with
  | none =>
      have nothing : CallTask.stores (.storing work) = ∅ := idle_stores _ entry
      rw [nothing, Set.empty_union] at covers
      rw [Set.Subset.antisymm smaller covers]
      exact sound
  | some owed =>
      have only : CallTask.stores (.storing work) = {owed} := by
        ext other
        simp [CallTask.stores, CallTask.store, entry, eq_comm]
      rw [only, Set.singleton_union] at covers
      exact store_coherent sound owed.1 owed.2 ⟨_, List.mem_of_getElem? here, by rw [only]; rfl⟩ _ smaller covers

theorem coalescing_sound (system : System) (index : Nat) (items : List CoalesceItem) (evicted : List String)
    (here : system.tasks[index]? = some (.coalescing items evicted)) (sound : system.Sound)
    (ordered : system.InOrder index) : (system.step index).Sound := by
  simp only [step, here, Sound]
  have stores := Tasks.owed_unchanged CallTask.stores system.tasks index _ (.purging evicted) here rfl
  have purges := Tasks.owed_unchanged CallTask.purges system.tasks index _ (.purging evicted) here rfl
  obtain ⟨smaller, covers⟩ := Tasks.owed_settled CallTask.coalesces system.tasks index _ (.purging evicted) here rfl
  simp only [outstanding, stores, purges]
  simp only [InOrder, here] at ordered
  exact coalesce_all_coherent sound items (fun item member => ⟨_, List.mem_of_getElem? here, member⟩) _ smaller covers
    ordered

theorem purging_sound (system : System) (index : Nat) (evicted : List String)
    (here : system.tasks[index]? = some (.purging evicted)) (sound : system.Sound)
    (ordered : system.InOrder index) : (system.step index).Sound := by
  simp only [step, here, Sound]
  have stores := Tasks.owed_unchanged CallTask.stores system.tasks index _ .finished here rfl
  have coalesces := Tasks.owed_unchanged CallTask.coalesces system.tasks index _ .finished here rfl
  obtain ⟨smaller, covers⟩ := Tasks.owed_settled CallTask.purges system.tasks index _ .finished here rfl
  simp only [outstanding, stores, coalesces]
  simp only [InOrder, here] at ordered
  rw [show CallTask.purges (.purging evicted) = {evicted} from rfl, Set.singleton_union] at covers
  exact purge_coherent sound evicted ⟨_, List.mem_of_getElem? here, rfl⟩ _ smaller covers
    fun entry ⟨task, member, owed⟩ => ordered task member entry owed

theorem step_sound (system : System) (index : Nat) (sound : system.Sound) (ordered : system.InOrder index) :
    (system.step index).Sound := by
  cases here : system.tasks[index]? with
  | none => simpa [step, here] using sound
  | some task =>
      cases task with
      | called call => exact called_sound system index call here sound
      | storing work => exact storing_sound system index work here sound
      | coalescing items evicted => exact coalescing_sound system index items evicted here sound ordered
      | purging evicted => exact purging_sound system index evicted here sound ordered
      | finished => simpa [step, here] using sound

theorem finished_served (system : System) (sound : system.Sound) (finished : system.Finished) : system.Served where
  whole := by
    intro segment member
    refine (Coherent.segment sound segment member).resolve_right ?_
    intro owing
    obtain ⟨_, task, inside, owed⟩ := owing
    rw [finished task inside] at owed
    exact owed
  gone := by
    intro uri evicted
    by_contra cached
    cases Coherent.cached sound uri cached with
    | inl live => exact Coherent.evictedGone sound uri evicted live
    | inr owing =>
        obtain ⟨uris, ⟨task, inside, owed⟩, _⟩ := owing
        rw [finished task inside] at owed
        exact owed

end System

-- In every interleaving that coalesces and purges in order, what is left when
-- all calls are done serves the playlist.
theorem ordered_interleaving_served (config : PlaylistBuilderConfig) (calls : List Call) (schedule : List Nat)
    (ordered : Machine.AllSteps System.InOrder System.step (System.start config calls) schedule)
    (finished : (Machine.run System.step (System.start config calls) schedule).Finished) :
    (Machine.run System.step (System.start config calls) schedule).Served :=
  System.finished_served _
    (Machine.invariant_of_guarded System.step_sound _ schedule (System.start_sound config calls) ordered) finished

def firstChunk : Cmaf.CmafChunk := ⟨"0.mp4", [1], 0, 3000, .segment⟩

def pushAndClose : List Call := [.pushChunkBytes firstChunk [1], .closePendingSegment]

-- The push runs to its end before the close starts.
theorem serial_push_and_close_served :
    (Machine.run System.step (System.start .default pushAndClose) [0, 0, 0, 0, 1, 1, 1]).Served :=
  ordered_interleaving_served .default pushAndClose [0, 0, 0, 0, 1, 1, 1] (by decide) (by decide)

-- The close coalesces segment 0 between the push's two sections.
theorem close_overtakes_store :
    ¬ ∀ (config : PlaylistBuilderConfig) (calls : List Call) (schedule : List Nat),
      (Machine.run System.step (System.start config calls) schedule).Finished →
        (Machine.run System.step (System.start config calls) schedule).Served := by
  intro served
  have whole := (served .default pushAndClose [0, 1, 1, 1, 0, 0, 0] (by decide)).whole
  revert whole
  decide +kernel

end Lvqr.Hls
