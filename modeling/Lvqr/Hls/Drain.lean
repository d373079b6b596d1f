import Lvqr.Cmaf.Coalescer
import Lvqr.Hls.Ledger
import Lvqr.Hls.Server

set_option autoImplicit false

-- The task that feeds one track's fragments to its server. `current_init` is
-- what `refresh_meta` finds when the fragment is taken from the stream.
namespace Lvqr.Hls

open PlaylistBuilder

structure Fragment where
  trackId : String
  dts : Nat
  duration : Nat
  keyframe : Bool
  payload : Bytes
deriving DecidableEq, Repr

def Fragment.chunk (fragment : Fragment) (kind : Cmaf.CmafChunkKind) : Cmaf.CmafChunk :=
  ⟨fragment.trackId, fragment.payload, fragment.dts, fragment.duration, kind⟩

structure Arrival where
  currentInit : Option Bytes
  fragment : Fragment
deriving DecidableEq, Repr

structure DrainTask where
  policy : Cmaf.CmafPolicy
  state : Cmaf.CmafPolicyState
  lastInit : Option Bytes
  server : HlsServer

namespace DrainTask

def new (config : PlaylistBuilderConfig) (timescale segmentDurationMs partDurationMs : Nat) : DrainTask :=
  let policy := Cmaf.CmafPolicy.withDurations timescale segmentDurationMs partDurationMs
  ⟨policy, .new policy, none, .new config⟩

def initChanged (task : DrainTask) (currentInit : Option Bytes) : Bool :=
  currentInit.isSome && currentInit != task.lastInit

def refreshInit (task : DrainTask) (currentInit : Option Bytes) : DrainTask :=
  match currentInit with
  | none => task
  | some init =>
      if task.lastInit = some init then task
      else { task with server := task.server.pushInit init, state := .new task.policy, lastInit := some init }

def kind (task : DrainTask) (fragment : Fragment) : Cmaf.CmafChunkKind :=
  (task.state.step fragment.keyframe fragment.dts).1

def pushFragment (task : DrainTask) (fragment : Fragment) : DrainTask :=
  { task with
    state := (task.state.step fragment.keyframe fragment.dts).2
    server := (task.server.pushChunkBytes (fragment.chunk (task.kind fragment)) fragment.payload).2 }

def drain (task : DrainTask) (arrival : Arrival) : DrainTask :=
  (task.refreshInit arrival.currentInit).pushFragment arrival.fragment

end DrainTask

-- The ledger remembers for each part whether it came from a keyframe.
structure TracedDrain where
  task : DrainTask
  ledger : Ledger Bool

namespace TracedDrain

def new (config : PlaylistBuilderConfig) (timescale segmentDurationMs partDurationMs : Nat) : TracedDrain :=
  ⟨.new config timescale segmentDurationMs partDurationMs, .empty⟩

def drain (traced : TracedDrain) (arrival : Arrival) : TracedDrain :=
  let refreshed := traced.task.refreshInit arrival.currentInit
  let chunk := arrival.fragment.chunk (refreshed.kind arrival.fragment)
  { task := traced.task.drain arrival
    ledger :=
      if refreshed.server.builder.Accepts chunk then
        traced.ledger.pushed refreshed.server.builder chunk arrival.fragment.keyframe
      else traced.ledger }

def finalize (traced : TracedDrain) : TracedDrain where
  task := { traced.task with server := traced.task.server.finalize }
  ledger := traced.ledger.closed traced.task.server.builder

end TracedDrain

def StartsOnKeyframe (keyframes : List Bool) (parts : List Part) : Prop :=
  keyframes.head? = some true ∧ parts.head?.map Part.independent = some true

structure Independent (builder : PlaylistBuilder) (ledger : Ledger Bool) : Prop extends Recorded builder ledger where
  closed : ∀ closed ∈ ledger.history, StartsOnKeyframe closed.labels closed.segment.parts
  opened : builder.pendingParts ≠ [] → StartsOnKeyframe ledger.openLabels builder.pendingParts

theorem new_independent (config : PlaylistBuilderConfig) : Independent (.new config) .empty := by
  refine ⟨new_recorded config, ?_, ?_⟩ <;> simp [PlaylistBuilder.new, Ledger.empty]

theorem independent_same (builder other : PlaylistBuilder) (ledger : Ledger Bool) (independent : Independent builder ledger)
    (pendingParts : other.pendingParts = builder.pendingParts)
    (segments : other.manifest.segments = builder.manifest.segments) : Independent other ledger where
  toRecorded := recorded_same builder other ledger independent.toRecorded pendingParts segments
  closed := independent.closed
  opened := pendingParts ▸ independent.opened

theorem closed_independent (builder : PlaylistBuilder) (ledger : Ledger Bool) (independent : Independent builder ledger) :
    Independent builder.closePendingSegment (ledger.closed builder) := by
  refine ⟨closed_recorded builder ledger independent.toRecorded, ?_, by simp⟩
  by_cases empty : builder.pendingParts = []
  · rw [ledger_nothing_pending ledger builder empty]
    exact independent.closed
  · rw [ledger_closed_pending ledger builder empty]
    intro closed member
    cases List.mem_append.mp member with
    | inl old => exact independent.closed closed old
    | inr new =>
        rw [List.mem_singleton.mp new]
        exact independent.opened empty

theorem started_independent (builder : PlaylistBuilder) (ledger : Ledger Bool) (chunk : Cmaf.CmafChunk)
    (independent : Independent builder ledger) :
    Independent (builder.startChunk chunk) (ledger.started builder chunk) := by
  have counted : Independent (builder.counted chunk) ledger := independent_same builder _ ledger independent rfl rfl
  rw [start_chunk_eq, Ledger.started]
  by_cases start : chunk.kind.isSegmentStart = true
  · rw [if_pos start, if_pos start]
    exact closed_independent (builder.counted chunk) ledger counted
  · rwa [if_neg start, if_neg start]

theorem head_of_append {α : Type} (items : List α) (last : α) (some : items ≠ []) :
    (items ++ [last]).head? = items.head? := by
  cases items with
  | nil => exact absurd rfl some
  | cons first rest => rfl

theorem pushed_independent (builder : PlaylistBuilder) (ledger : Ledger Bool) (chunk : Cmaf.CmafChunk) (keyframe : Bool)
    (independent : Independent builder ledger)
    (allowed : builder.pendingParts = [] ∨ chunk.kind.isSegmentStart = true →
      keyframe = true ∧ chunk.kind.isIndependent = true) :
    Independent (builder.accept chunk) (ledger.pushed builder chunk keyframe) := by
  have started := started_independent builder ledger chunk independent
  refine ⟨pushed_recorded builder ledger chunk keyframe independent.toRecorded, started.closed, fun _ => ?_⟩
  by_cases opens : builder.pendingParts = [] ∨ chunk.kind.isSegmentStart = true
  · obtain ⟨labels, parts⟩ := pushed_opens builder ledger chunk keyframe independent.toRecorded opens
    obtain ⟨isKeyframe, isIndependent⟩ := allowed opens
    rw [labels, parts, isKeyframe]
    exact ⟨rfl, congrArg some isIndependent⟩
  · rw [not_or] at opens
    obtain ⟨pending, within⟩ := opens
    obtain ⟨ledgerNow, parts⟩ := pushed_extends builder ledger chunk keyframe (by simpa using within)
    have labelled := (open_labels_empty_iff builder ledger independent.toRecorded).not.mpr pending
    rw [ledgerNow, parts]
    unfold StartsOnKeyframe
    rw [head_of_append _ _ pending, head_of_append _ _ labelled]
    exact independent.opened pending

-- The opposite of `Independent`: once a segment starts on anything else, no
-- later step repairs it.
def StartsOff (ledger : Ledger Bool) : Prop :=
  ledger.openLabels.head? = some false ∨ ∃ closed ∈ ledger.history, closed.labels.head? = some false

theorem closed_starts_off (builder : PlaylistBuilder) (ledger : Ledger Bool) (recorded : Recorded builder ledger)
    (off : StartsOff ledger) : ∃ closed ∈ (ledger.closed builder).history, closed.labels.head? = some false := by
  by_cases empty : builder.pendingParts = []
  · rw [ledger_nothing_pending ledger builder empty]
    cases off with
    | inl opened => simp [(open_labels_empty_iff builder ledger recorded).mpr empty] at opened
    | inr closed => exact closed
  · rw [ledger_closed_pending ledger builder empty]
    cases off with
    | inl opened => exact ⟨_, List.mem_append_right _ (List.mem_singleton_self _), opened⟩
    | inr closed =>
        obtain ⟨segment, member, first⟩ := closed
        exact ⟨segment, List.mem_append_left _ member, first⟩

theorem pushed_starts_off (builder : PlaylistBuilder) (ledger : Ledger Bool) (chunk : Cmaf.CmafChunk) (keyframe : Bool)
    (recorded : Recorded builder ledger) (off : StartsOff ledger) :
    StartsOff (ledger.pushed builder chunk keyframe) := by
  cases start : chunk.kind.isSegmentStart with
  | true =>
      right
      simpa [Ledger.pushed, Ledger.started, start] using closed_starts_off builder ledger recorded off
  | false =>
      rw [(pushed_extends builder ledger chunk keyframe start).1]
      cases off with
      | inl opened =>
          have labelled : ledger.openLabels ≠ [] := by
            intro empty
            simp [empty] at opened
          exact .inl ((head_of_append _ _ labelled).trans opened)
      | inr closed => exact .inr closed

theorem refresh_same (task : DrainTask) (currentInit : Option Bytes) :
    let refreshed := (task.refreshInit currentInit).server.builder
    refreshed.pendingParts = task.server.builder.pendingParts ∧
      refreshed.manifest.segments = task.server.builder.manifest.segments ∧
      refreshed.lastDts = task.server.builder.lastDts := by
  cases currentInit with
  | none => exact ⟨rfl, rfl, rfl⟩
  | some init =>
      unfold DrainTask.refreshInit HlsServer.pushInit
      dsimp only
      split
      · exact ⟨rfl, rfl, rfl⟩
      · dsimp only
        split <;> exact ⟨rfl, rfl, rfl⟩

theorem refresh_state (task : DrainTask) (currentInit : Option Bytes) :
    (task.refreshInit currentInit).state =
      if task.initChanged currentInit then .new task.policy else task.state := by
  cases currentInit with
  | none => rfl
  | some init =>
      unfold DrainTask.refreshInit DrainTask.initChanged
      by_cases same : task.lastInit = some init
      · simp [same]
      · have changed : some init ≠ task.lastInit := fun equal => same equal.symm
        simp [same, changed]

namespace TracedDrain

def Recorded (traced : TracedDrain) : Prop := Hls.Recorded traced.task.server.builder traced.ledger

structure Sound (traced : TracedDrain) : Prop extends Independent traced.task.server.builder traced.ledger where
  fresh : traced.task.state.lastSegmentStartDts = none → traced.task.server.builder.pendingParts = []

theorem new_sound (config : PlaylistBuilderConfig) (timescale segmentDurationMs partDurationMs : Nat) :
    (new config timescale segmentDurationMs partDurationMs).Sound :=
  ⟨new_independent config, fun _ => rfl⟩

theorem drain_accepted (traced : TracedDrain) (arrival : Arrival)
    (positive : 0 < arrival.fragment.duration)
    (monotone : ∀ last ∈ traced.task.server.builder.lastDts, last ≤ arrival.fragment.dts) :
    let refreshed := traced.task.refreshInit arrival.currentInit
    let chunk := arrival.fragment.chunk (refreshed.kind arrival.fragment)
    (traced.drain arrival).task.server.builder = { refreshed.server.builder.accept chunk with evictedUris := [] } ∧
      (traced.drain arrival).ledger = traced.ledger.pushed refreshed.server.builder chunk arrival.fragment.keyframe := by
  intro refreshed chunk
  have accepts : refreshed.server.builder.Accepts chunk := by
    refine ⟨positive, ?_⟩
    rw [(refresh_same traced.task arrival.currentInit).2.2]
    exact monotone
  refine ⟨?_, if_pos accepts⟩
  exact (HlsServer.push_chunk_builder refreshed.server chunk arrival.fragment.payload).trans (if_pos accepts)

theorem drain_rejected (traced : TracedDrain) (arrival : Arrival)
    (rejects : ¬ (0 < arrival.fragment.duration ∧
      ∀ last ∈ traced.task.server.builder.lastDts, last ≤ arrival.fragment.dts)) :
    (traced.drain arrival).task.server.builder = (traced.task.refreshInit arrival.currentInit).server.builder ∧
      (traced.drain arrival).ledger = traced.ledger := by
  let refreshed := traced.task.refreshInit arrival.currentInit
  let chunk := arrival.fragment.chunk (refreshed.kind arrival.fragment)
  have notAccepts : ¬ refreshed.server.builder.Accepts chunk := by
    intro accepts
    have sameDts := (refresh_same traced.task arrival.currentInit).2.2
    exact rejects ⟨accepts.1, sameDts ▸ accepts.2⟩
  refine ⟨?_, if_neg notAccepts⟩
  exact (HlsServer.push_chunk_builder refreshed.server chunk arrival.fragment.payload).trans (if_neg notAccepts)

theorem drain_started (traced : TracedDrain) (arrival : Arrival) :
    (traced.drain arrival).task.state.lastSegmentStartDts ≠ none := by
  have started := Cmaf.CmafPolicyState.step_started (traced.task.refreshInit arrival.currentInit).state
    arrival.fragment.keyframe arrival.fragment.dts
  intro fresh
  have unset : (Cmaf.CmafPolicyState.step (traced.task.refreshInit arrival.currentInit).state
    arrival.fragment.keyframe arrival.fragment.dts).2.lastSegmentStartDts = none := fresh
  simp [unset] at started

def KeyframeStarts (traced : TracedDrain) (arrival : Arrival) : Prop :=
  0 < arrival.fragment.duration → (∀ last ∈ traced.task.server.builder.lastDts, last ≤ arrival.fragment.dts) →
    (traced.task.server.builder.pendingParts = [] ∨ traced.task.initChanged arrival.currentInit = true) →
    arrival.fragment.keyframe = true

-- A boundary chunk that is no keyframe can only come from a fresh policy, which
-- means nothing is pending or the init segment has just changed.
theorem boundary_is_keyframe (traced : TracedDrain) (arrival : Arrival) (sound : traced.Sound)
    (keyframeNeeded : traced.task.server.builder.pendingParts = [] ∨
      traced.task.initChanged arrival.currentInit = true → arrival.fragment.keyframe = true)
    (boundary : ((traced.task.refreshInit arrival.currentInit).kind arrival.fragment).isSegmentStart = true) :
    arrival.fragment.keyframe = true := by
  by_cases changed : traced.task.initChanged arrival.currentInit = true
  · exact keyframeNeeded (.inr changed)
  · by_cases fresh : traced.task.state.lastSegmentStartDts = none
    · exact keyframeNeeded (.inl (sound.fresh fresh))
    · rw [DrainTask.kind, refresh_state, if_neg changed] at boundary
      have flagged := Cmaf.CmafPolicyState.step_independent traced.task.state arrival.fragment.keyframe
        arrival.fragment.dts fresh
      exact flagged.symm.trans (Cmaf.segment_start_independent _ boundary)

theorem drain_sound (traced : TracedDrain) (arrival : Arrival) (sound : traced.Sound)
    (allowed : traced.KeyframeStarts arrival) : (traced.drain arrival).Sound := by
  have same := refresh_same traced.task arrival.currentInit
  have refreshed := independent_same _ _ _ sound.toIndependent same.1 same.2.1
  refine ⟨?_, fun fresh => absurd fresh (drain_started traced arrival)⟩
  by_cases accepts : 0 < arrival.fragment.duration ∧
      ∀ last ∈ traced.task.server.builder.lastDts, last ≤ arrival.fragment.dts
  · obtain ⟨builder, ledger⟩ := drain_accepted traced arrival accepts.1 accepts.2
    rw [builder, ledger]
    refine independent_same _ _ _ (pushed_independent _ _ _ _ refreshed fun opens => ?_) rfl rfl
    have keyframe : arrival.fragment.keyframe = true := by
      cases opens with
      | inl empty => exact allowed accepts.1 accepts.2 (.inl (same.1.symm.trans empty))
      | inr boundary => exact boundary_is_keyframe traced arrival sound (allowed accepts.1 accepts.2) boundary
    refine ⟨keyframe, ?_⟩
    simp only [Fragment.chunk, DrainTask.kind, keyframe]
    exact Cmaf.CmafPolicyState.keyframe_independent _ _
  · obtain ⟨builder, ledger⟩ := drain_rejected traced arrival accepts
    rw [builder, ledger]
    exact refreshed

theorem drain_recorded (traced : TracedDrain) (arrival : Arrival) (recorded : traced.Recorded) :
    (traced.drain arrival).Recorded := by
  have same := refresh_same traced.task arrival.currentInit
  have refreshed := recorded_same _ _ _ recorded same.1 same.2.1
  unfold Recorded
  by_cases accepts : 0 < arrival.fragment.duration ∧
      ∀ last ∈ traced.task.server.builder.lastDts, last ≤ arrival.fragment.dts
  · obtain ⟨builder, ledger⟩ := drain_accepted traced arrival accepts.1 accepts.2
    rw [builder, ledger]
    exact recorded_same _ _ _ (pushed_recorded _ _ _ _ refreshed) rfl rfl
  · obtain ⟨builder, ledger⟩ := drain_rejected traced arrival accepts
    rw [builder, ledger]
    exact refreshed

theorem drain_stays_off (traced : TracedDrain) (arrival : Arrival) (recorded : traced.Recorded)
    (off : StartsOff traced.ledger) : StartsOff (traced.drain arrival).ledger := by
  have same := refresh_same traced.task arrival.currentInit
  have refreshed := recorded_same _ _ _ recorded same.1 same.2.1
  by_cases accepts : 0 < arrival.fragment.duration ∧
      ∀ last ∈ traced.task.server.builder.lastDts, last ≤ arrival.fragment.dts
  · rw [(drain_accepted traced arrival accepts.1 accepts.2).2]
    exact pushed_starts_off _ _ _ _ refreshed off
  · rwa [(drain_rejected traced arrival accepts).2]

theorem drain_goes_off (traced : TracedDrain) (arrival : Arrival) (recorded : traced.Recorded)
    (broken : ¬ traced.KeyframeStarts arrival) : StartsOff (traced.drain arrival).ledger := by
  simp only [KeyframeStarts, Classical.not_imp, Bool.not_eq_true] at broken
  obtain ⟨positive, monotone, opens, notKeyframe⟩ := broken
  have same := refresh_same traced.task arrival.currentInit
  have refreshed := recorded_same _ _ _ recorded same.1 same.2.1
  left
  rw [(drain_accepted traced arrival positive monotone).2, (pushed_opens _ _ _ _ refreshed _).1, notKeyframe]
  · rfl
  · cases opens with
    | inl empty => exact .inl (same.1.trans empty)
    | inr changed =>
        right
        have fresh : (traced.task.refreshInit arrival.currentInit).state.lastSegmentStartDts = none := by
          rw [refresh_state, if_pos changed]
          rfl
        simp [Fragment.chunk, DrainTask.kind, Cmaf.CmafPolicyState.step_fresh _ _ _ fresh,
          Cmaf.CmafChunkKind.isSegmentStart]

theorem run_stays_off (traced : TracedDrain) (arrivals : List Arrival) (recorded : traced.Recorded)
    (off : StartsOff traced.ledger) : StartsOff (Machine.run drain traced arrivals).ledger := by
  induction arrivals generalizing traced with
  | nil => exact off
  | cons arrival arrivals ih =>
      exact ih _ (drain_recorded traced arrival recorded) (drain_stays_off traced arrival recorded off)

theorem run_goes_off (traced : TracedDrain) (arrivals : List Arrival) (recorded : traced.Recorded)
    (broken : ¬ Machine.AllSteps KeyframeStarts drain traced arrivals) :
    StartsOff (Machine.run drain traced arrivals).ledger := by
  induction arrivals generalizing traced with
  | nil => exact absurd trivial broken
  | cons arrival arrivals ih =>
      have next := drain_recorded traced arrival recorded
      by_cases here : traced.KeyframeStarts arrival
      · exact ih _ next fun rest => broken ⟨here, rest⟩
      · exact run_stays_off _ arrivals next (drain_goes_off traced arrival recorded here)

end TracedDrain

-- The drain delivers independent segments exactly when no segment gets the
-- chance to start on anything but a keyframe. `finalize` closes the last one.
theorem segments_start_on_keyframes_iff (config : PlaylistBuilderConfig)
    (timescale segmentDurationMs partDurationMs : Nat) (arrivals : List Arrival) :
    let start := TracedDrain.new config timescale segmentDurationMs partDurationMs
    let ended := (Machine.run TracedDrain.drain start arrivals).finalize
    ended.Recorded ∧
      ((∀ closed ∈ ended.ledger.history, StartsOnKeyframe closed.labels closed.segment.parts) ↔
        Machine.AllSteps TracedDrain.KeyframeStarts TracedDrain.drain start arrivals) := by
  intro start ended
  have sound := TracedDrain.new_sound config timescale segmentDurationMs partDurationMs
  have recorded : (Machine.run TracedDrain.drain start arrivals).Recorded :=
    Machine.invariant_of_run TracedDrain.drain_recorded start arrivals sound.toRecorded
  refine ⟨recorded_same _ _ _ (closed_recorded _ _ recorded) rfl rfl, ?_⟩
  constructor
  · intro independent
    by_contra broken
    have off := TracedDrain.run_goes_off start arrivals sound.toRecorded broken
    obtain ⟨closed, member, first⟩ := closed_starts_off _ _ recorded off
    have keyframe := (independent closed member).1
    simp [first] at keyframe
  · intro allowed
    have kept := Machine.invariant_of_guarded TracedDrain.drain_sound start arrivals sound allowed
    exact (closed_independent _ _ kept.toIndependent).closed

-- The first keyframe has no duration and is refused, but the policy has moved
-- on: the delta that follows opens the first segment as a plain partial.
theorem refused_keyframe_leaves_dependent_segment :
    ¬ ∀ (config : PlaylistBuilderConfig) (timescale segmentDurationMs partDurationMs : Nat) (arrivals : List Arrival),
      (∀ first ∈ arrivals.head?, first.fragment.keyframe = true) →
      ∀ segment ∈ (Machine.run DrainTask.drain (.new config timescale segmentDurationMs partDurationMs)
          arrivals).server.builder.manifest.segments,
        segment.parts.head?.map Part.independent = some true := by
  intro independent
  let arrivals : List Arrival :=
    [⟨none, ⟨"0.mp4", 0, 0, true, []⟩⟩, ⟨none, ⟨"0.mp4", 0, 3000, false, []⟩⟩,
      ⟨none, ⟨"0.mp4", 180000, 3000, true, []⟩⟩]
  have starts := independent .default 90000 2000 200 arrivals (by decide)
  revert starts
  decide

end Lvqr.Hls
