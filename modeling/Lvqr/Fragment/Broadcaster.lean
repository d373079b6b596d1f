import Mathlib.Data.Set.Insert
import Lvqr.Bytes

set_option autoImplicit false

namespace Lvqr

structure FragmentFlags where
  keyframe : Bool
  independent : Bool
  discardable : Bool
deriving DecidableEq, Repr

namespace FragmentFlags

def KEYFRAME : FragmentFlags := ⟨true, true, false⟩

def AUDIO : FragmentFlags := ⟨false, true, false⟩

def DELTA : FragmentFlags := ⟨false, false, false⟩

def ofKeyframe (keyframe : Bool) : FragmentFlags := if keyframe then KEYFRAME else DELTA

end FragmentFlags

-- The payload is the sample's own bytes: the moof and mdat boxes around it carry
-- nothing but the sequence number, the timestamps and the sample.
structure Media.Fragment where
  trackId : String
  groupId : Nat
  dts : Nat
  pts : Nat
  duration : Nat
  flags : FragmentFlags
  payload : Bytes
deriving DecidableEq, Repr

structure FragmentMeta where
  codec : String
  timescale : Nat
  initSegment : Option Bytes
deriving DecidableEq, Repr

def FragmentMeta.new (codec : String) (timescale : Nat) : FragmentMeta := ⟨codec, timescale, none⟩

end Lvqr

namespace Lvqr

inductive EntryEvent where
  | created
  | removed
deriving DecidableEq, Repr

-- A created callback either subscribes to the broadcaster it is handed or does
-- nothing to it.
inductive EntryCallback where
  | subscribes
  | observes
deriving DecidableEq, Repr

-- A stream is what `emit` sent to the subscriber since it subscribed; `attached`
-- are the streams a created callback opened. `callbackRuns` is ghost state.
structure FragmentBroadcaster where
  info : FragmentMeta
  emitted : List Media.Fragment
  attached : List (List Media.Fragment)
  subscribers : List (List Media.Fragment)
  callbackRuns : List EntryEvent
deriving DecidableEq, Repr

inductive HandleUse where
  | emit (fragment : Media.Fragment)
  | setInitSegment (init : Bytes)
  | subscribe
deriving DecidableEq, Repr

def CallbacksOrdered (runs : List EntryEvent) : Prop :=
  runs.Pairwise fun earlier later => earlier = .removed → later = .removed

instance (runs : List EntryEvent) : Decidable (CallbacksOrdered runs) :=
  inferInstanceAs (Decidable (runs.Pairwise _))

theorem created_last_ordered (runs : List EntryEvent) :
    CallbacksOrdered (runs ++ [.created]) ↔ CallbacksOrdered runs ∧ .removed ∉ runs := by
  simp only [CallbacksOrdered, List.pairwise_append, List.pairwise_singleton, List.mem_singleton, true_and]
  constructor
  · intro ⟨ordered, last⟩
    refine ⟨ordered, fun ran => ?_⟩
    cases last _ ran _ rfl rfl
  · intro ⟨ordered, notRan⟩
    refine ⟨ordered, fun event member _ _ isRemoved => ?_⟩
    exact absurd (isRemoved ▸ member) notRan

theorem removed_last_ordered (runs : List EntryEvent) :
    CallbacksOrdered (runs ++ [.removed]) ↔ CallbacksOrdered runs := by
  simp [CallbacksOrdered, List.pairwise_append]

namespace FragmentBroadcaster

def new (info : FragmentMeta) : FragmentBroadcaster := ⟨info, [], [], [], []⟩

def emit (broadcaster : FragmentBroadcaster) (fragment : Media.Fragment) : FragmentBroadcaster :=
  { broadcaster with
    emitted := broadcaster.emitted ++ [fragment]
    attached := broadcaster.attached.map (· ++ [fragment])
    subscribers := broadcaster.subscribers.map (· ++ [fragment]) }

def setInitSegment (broadcaster : FragmentBroadcaster) (init : Bytes) : FragmentBroadcaster :=
  { broadcaster with info := { broadcaster.info with initSegment := some init } }

def subscribe (broadcaster : FragmentBroadcaster) : FragmentBroadcaster :=
  { broadcaster with subscribers := broadcaster.subscribers ++ [[]] }

def use (broadcaster : FragmentBroadcaster) : HandleUse → FragmentBroadcaster
  | .emit fragment => broadcaster.emit fragment
  | .setInitSegment init => broadcaster.setInitSegment init
  | .subscribe => broadcaster.subscribe

def runCreated (broadcaster : FragmentBroadcaster) (callback : EntryCallback) : FragmentBroadcaster :=
  { broadcaster with
    attached := if callback = .subscribes then broadcaster.attached ++ [[]] else broadcaster.attached
    callbackRuns := broadcaster.callbackRuns ++ [.created] }

def runRemoved (broadcaster : FragmentBroadcaster) : FragmentBroadcaster :=
  { broadcaster with callbackRuns := broadcaster.callbackRuns ++ [.removed] }

-- What the callbacks are promised: a subscriber they attach misses nothing, and
-- no created callback runs behind a removed one.
def Faithful (broadcaster : FragmentBroadcaster) : Prop :=
  (∀ stream ∈ broadcaster.attached, stream = broadcaster.emitted) ∧ CallbacksOrdered broadcaster.callbackRuns

instance (broadcaster : FragmentBroadcaster) : Decidable broadcaster.Faithful :=
  inferInstanceAs (Decidable (_ ∧ _))

-- `owing` are the created callbacks still to run on the broadcaster.
structure Sound (broadcaster : FragmentBroadcaster) (owing : Set EntryCallback) : Prop where
  complete : ∀ stream ∈ broadcaster.attached, stream = broadcaster.emitted
  ordered : CallbacksOrdered broadcaster.callbackRuns
  silent : .subscribes ∈ owing → broadcaster.emitted = []
  unremoved : .removed ∈ broadcaster.callbackRuns → owing = ∅

-- A promise that is broken already or that the callbacks still to run will break.
inductive Spoiled (broadcaster : FragmentBroadcaster) (owing : Set EntryCallback) : Prop where
  | missed (stream : List Media.Fragment) (attached : stream ∈ broadcaster.attached)
      (behind : stream.length < broadcaster.emitted.length)
  | willMiss (owed : .subscribes ∈ owing) (spoke : broadcaster.emitted ≠ [])
  | disordered (late : ¬ CallbacksOrdered broadcaster.callbackRuns)
  | willDisorder (callback : EntryCallback) (owed : callback ∈ owing) (ran : .removed ∈ broadcaster.callbackRuns)

theorem new_sound (info : FragmentMeta) (owing : Set EntryCallback) : (new info).Sound owing where
  complete := by simp [new]
  ordered := List.Pairwise.nil
  silent := fun _ => rfl
  unremoved := by simp [new]

theorem Sound.fewer {broadcaster : FragmentBroadcaster} {owing rest : Set EntryCallback}
    (sound : broadcaster.Sound owing) (fewer : rest ⊆ owing) : broadcaster.Sound rest where
  complete := sound.complete
  ordered := sound.ordered
  silent := fun owed => sound.silent (fewer owed)
  unremoved := fun ran => Set.subset_empty_iff.mp (sound.unremoved ran ▸ fewer)

theorem Spoiled.more {broadcaster : FragmentBroadcaster} {owing rest : Set EntryCallback}
    (spoiled : broadcaster.Spoiled owing) (more : owing ⊆ rest) : broadcaster.Spoiled rest := by
  rcases spoiled with ⟨stream, attached, behind⟩ | ⟨owed, spoke⟩ | late | ⟨callback, owed, ran⟩
  · exact .missed stream attached behind
  · exact .willMiss (more owed) spoke
  · exact .disordered late
  · exact .willDisorder callback (more owed) ran

theorem Spoiled.unmoved {before after : FragmentBroadcaster} {owing : Set EntryCallback}
    (spoiled : before.Spoiled owing) (attached : after.attached = before.attached)
    (emitted : after.emitted = before.emitted) (runs : after.callbackRuns = before.callbackRuns) :
    after.Spoiled owing := by
  rcases spoiled with ⟨stream, member, behind⟩ | ⟨owed, spoke⟩ | late | ⟨callback, owed, ran⟩
  · exact .missed stream (attached ▸ member) (emitted ▸ behind)
  · exact .willMiss owed (emitted ▸ spoke)
  · exact .disordered (runs ▸ late)
  · exact .willDisorder callback owed (runs ▸ ran)

theorem use_sound (broadcaster : FragmentBroadcaster) (owing : Set EntryCallback) (action : HandleUse)
    (sound : broadcaster.Sound owing) (heard : ∀ fragment, action = .emit fragment → .subscribes ∉ owing) :
    (broadcaster.use action).Sound owing := by
  cases action with
  | emit fragment =>
      refine ⟨?_, sound.ordered, fun owed => absurd owed (heard fragment rfl), sound.unremoved⟩
      intro stream member
      obtain ⟨before, attached, rfl⟩ := List.mem_map.mp member
      exact congrArg (· ++ [fragment]) (sound.complete before attached)
  | setInitSegment init => exact ⟨sound.complete, sound.ordered, sound.silent, sound.unremoved⟩
  | subscribe => exact ⟨sound.complete, sound.ordered, sound.silent, sound.unremoved⟩

theorem use_spoiled (broadcaster : FragmentBroadcaster) (owing : Set EntryCallback) (action : HandleUse)
    (spoiled : broadcaster.Spoiled owing) : (broadcaster.use action).Spoiled owing := by
  cases action with
  | emit fragment =>
      rcases spoiled with ⟨stream, attached, behind⟩ | ⟨owed, spoke⟩ | late | ⟨callback, owed, ran⟩
      · refine .missed (stream ++ [fragment]) (List.mem_map.mpr ⟨stream, attached, rfl⟩) ?_
        simpa [use, emit] using behind
      · exact .willMiss owed (by simp [use, emit])
      · exact .disordered late
      · exact .willDisorder callback owed ran
  | setInitSegment init => exact spoiled.unmoved rfl rfl rfl
  | subscribe => exact spoiled.unmoved rfl rfl rfl

theorem run_created_sound (broadcaster : FragmentBroadcaster) (owing : Set EntryCallback) (callback : EntryCallback)
    (sound : broadcaster.Sound owing) (owed : callback ∈ owing) : (broadcaster.runCreated callback).Sound owing := by
  have notRemoved : .removed ∉ broadcaster.callbackRuns := by
    intro ran
    rw [sound.unremoved ran] at owed
    exact owed
  refine ⟨?_, (created_last_ordered _).mpr ⟨sound.ordered, notRemoved⟩, sound.silent, ?_⟩
  · intro stream member
    cases callback with
    | observes => exact sound.complete stream member
    | subscribes =>
        -- The new stream is empty, and nothing has been emitted while it was owed.
        rcases List.mem_append.mp member with before | fresh
        · exact sound.complete stream before
        · rw [List.mem_singleton.mp fresh]
          exact (sound.silent owed).symm
  · intro ran
    exact absurd (by simpa [runCreated] using ran) notRemoved

-- The callback that breaks the promise may be the one that runs now.
theorem run_created_spoiled (broadcaster : FragmentBroadcaster) (owing rest : Set EntryCallback)
    (callback : EntryCallback) (spoiled : broadcaster.Spoiled owing) (covers : owing ⊆ insert callback rest) :
    (broadcaster.runCreated callback).Spoiled rest := by
  rcases spoiled with ⟨stream, attached, behind⟩ | ⟨owed, spoke⟩ | late | ⟨other, owed, ran⟩
  · refine .missed stream ?_ behind
    simp only [runCreated]
    split
    · exact List.mem_append_left _ attached
    · exact attached
  · rcases covers owed with now | later
    · subst now
      exact .missed [] (by simp [runCreated]) (List.length_pos_iff.mpr spoke)
    · exact .willMiss later spoke
  · exact .disordered fun ordered => late ((created_last_ordered _).mp ordered).1
  · exact .disordered fun ordered => ((created_last_ordered _).mp ordered).2 ran

theorem run_removed_sound (broadcaster : FragmentBroadcaster) (owing : Set EntryCallback)
    (sound : broadcaster.Sound owing) (settled : owing = ∅) : broadcaster.runRemoved.Sound owing where
  complete := sound.complete
  ordered := (removed_last_ordered _).mpr sound.ordered
  silent := sound.silent
  unremoved := fun _ => settled

theorem run_removed_spoiled (broadcaster : FragmentBroadcaster) (owing : Set EntryCallback)
    (spoiled : broadcaster.Spoiled owing) : broadcaster.runRemoved.Spoiled owing := by
  rcases spoiled with ⟨stream, attached, behind⟩ | ⟨owed, spoke⟩ | late | ⟨callback, owed, ran⟩
  · exact .missed stream attached behind
  · exact .willMiss owed spoke
  · exact .disordered fun ordered => late ((removed_last_ordered _).mp ordered)
  · exact .willDisorder callback owed (List.mem_append_left _ ran)

theorem settled_spoiled (broadcaster : FragmentBroadcaster) (spoiled : broadcaster.Spoiled ∅) :
    ¬ broadcaster.Faithful := by
  intro ⟨complete, ordered⟩
  rcases spoiled with ⟨stream, attached, behind⟩ | ⟨owed, _⟩ | late | ⟨_, owed, _⟩
  · rw [complete stream attached] at behind
    exact absurd behind (lt_irrefl _)
  · exact owed
  · exact late ordered
  · exact owed

end FragmentBroadcaster

end Lvqr
