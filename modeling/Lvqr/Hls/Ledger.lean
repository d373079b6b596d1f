import Lvqr.Hls.Builder

set_option autoImplicit false

-- Ghost record of a builder's runs: a label for every accepted chunk, grouped by
-- the segment its part went into. The playlist forgets a segment once it leaves
-- the window; the history keeps all that ever closed.
namespace Lvqr.Hls

open PlaylistBuilder

structure ClosedSegment (Label : Type) where
  segment : Segment
  labels : List Label
deriving DecidableEq, Repr

structure Ledger (Label : Type) where
  openLabels : List Label
  history : List (ClosedSegment Label)
deriving DecidableEq, Repr

section Ledger

variable {Label : Type}

namespace Ledger

def empty : Ledger Label := ⟨[], []⟩

def closed (ledger : Ledger Label) (builder : PlaylistBuilder) : Ledger Label :=
  if builder.pendingParts = [] then ledger
  else ⟨[], ledger.history ++ [⟨builder.pendingSegment, ledger.openLabels⟩]⟩

def started (ledger : Ledger Label) (builder : PlaylistBuilder) (chunk : Cmaf.CmafChunk) : Ledger Label :=
  if chunk.kind.isSegmentStart then ledger.closed builder else ledger

def pushed (ledger : Ledger Label) (builder : PlaylistBuilder) (chunk : Cmaf.CmafChunk) (label : Label) :
    Ledger Label :=
  let started := ledger.started builder chunk
  { started with openLabels := started.openLabels ++ [label] }

def labels (ledger : Ledger Label) : List Label :=
  ledger.history.flatMap ClosedSegment.labels ++ ledger.openLabels

end Ledger

-- The playlist shows the newest part of the history, and every part has its label.
structure Recorded (builder : PlaylistBuilder) (ledger : Ledger Label) : Prop where
  window : builder.manifest.segments <:+ ledger.history.map ClosedSegment.segment
  aligned : ∀ closed ∈ ledger.history, closed.labels.length = closed.segment.parts.length
  openAligned : ledger.openLabels.length = builder.pendingParts.length

theorem new_recorded (config : PlaylistBuilderConfig) : Recorded (new config) (.empty : Ledger Label) := by
  refine ⟨?_, ?_, ?_⟩ <;> simp [new, Ledger.empty]

theorem recorded_same (builder other : PlaylistBuilder) (ledger : Ledger Label) (recorded : Recorded builder ledger)
    (pendingParts : other.pendingParts = builder.pendingParts)
    (segments : other.manifest.segments = builder.manifest.segments) : Recorded other ledger where
  window := segments ▸ recorded.window
  aligned := recorded.aligned
  openAligned := pendingParts ▸ recorded.openAligned

theorem open_labels_empty_iff (builder : PlaylistBuilder) (ledger : Ledger Label) (recorded : Recorded builder ledger) :
    ledger.openLabels = [] ↔ builder.pendingParts = [] := by
  rw [← List.length_eq_zero_iff, recorded.openAligned, List.length_eq_zero_iff]

theorem ledger_nothing_pending (ledger : Ledger Label) (builder : PlaylistBuilder) (empty : builder.pendingParts = []) :
    ledger.closed builder = ledger := if_pos empty

theorem ledger_closed_pending (ledger : Ledger Label) (builder : PlaylistBuilder)
    (pending : builder.pendingParts ≠ []) :
    ledger.closed builder = ⟨[], ledger.history ++ [⟨builder.pendingSegment, ledger.openLabels⟩]⟩ := if_neg pending

theorem closed_recorded (builder : PlaylistBuilder) (ledger : Ledger Label) (recorded : Recorded builder ledger) :
    Recorded builder.closePendingSegment (ledger.closed builder) := by
  by_cases empty : builder.pendingParts = []
  · rwa [close_nothing_pending builder empty, ledger_nothing_pending ledger builder empty]
  · obtain ⟨ranges, _, closed⟩ := close_pending_eq builder empty
    rw [closed, ledger_closed_pending ledger builder empty]
    refine ⟨?_, ?_, rfl⟩
    · have grown : builder.appendSegment.manifest.segments <:+
          (ledger.history ++ [(⟨builder.pendingSegment, ledger.openLabels⟩ : ClosedSegment Label)]).map
            ClosedSegment.segment := by
        obtain ⟨dropped, split⟩ := recorded.window
        exact ⟨dropped, by rw [List.map_append, ← split, List.append_assoc]; rfl⟩
      exact (List.drop_suffix _ _).trans grown
    · intro other member
      cases List.mem_append.mp member with
      | inl old => exact recorded.aligned other old
      | inr new =>
          rw [List.mem_singleton.mp new]
          exact recorded.openAligned

theorem closed_labels (ledger : Ledger Label) (builder : PlaylistBuilder) :
    (ledger.closed builder).labels = ledger.labels := by
  by_cases empty : builder.pendingParts = []
  · rw [ledger_nothing_pending ledger builder empty]
  · rw [ledger_closed_pending ledger builder empty]
    simp [Ledger.labels]

theorem pushed_labels (ledger : Ledger Label) (builder : PlaylistBuilder) (chunk : Cmaf.CmafChunk) (label : Label) :
    (ledger.pushed builder chunk label).labels = ledger.labels ++ [label] := by
  have started : (ledger.started builder chunk).labels = ledger.labels := by
    rw [Ledger.started]
    split
    · exact closed_labels ledger builder
    · rfl
  rw [← started, Ledger.pushed, Ledger.labels, Ledger.labels, List.append_assoc]

-- `start_chunk` closes the open segment under the chunk's own counters, which
-- neither the ledger nor the record reads.
theorem started_recorded (builder : PlaylistBuilder) (ledger : Ledger Label) (chunk : Cmaf.CmafChunk)
    (recorded : Recorded builder ledger) : Recorded (builder.startChunk chunk) (ledger.started builder chunk) := by
  have counted : Recorded (builder.counted chunk) ledger := recorded_same builder _ ledger recorded rfl rfl
  rw [start_chunk_eq, Ledger.started]
  by_cases start : chunk.kind.isSegmentStart = true
  · rw [if_pos start, if_pos start]
    exact closed_recorded (builder.counted chunk) ledger counted
  · rwa [if_neg start, if_neg start]

theorem pushed_recorded (builder : PlaylistBuilder) (ledger : Ledger Label) (chunk : Cmaf.CmafChunk) (label : Label)
    (recorded : Recorded builder ledger) : Recorded (builder.accept chunk) (ledger.pushed builder chunk label) := by
  have started := started_recorded builder ledger chunk recorded
  exact ⟨started.window, started.aligned, by simp [Ledger.pushed, accept, appendPart, started.openAligned]⟩

-- Without a window the playlist shows the history itself.
def Unwindowed (builder : PlaylistBuilder) (ledger : Ledger Label) : Prop :=
  builder.config.maxSegments = none → builder.manifest.segments = ledger.history.map ClosedSegment.segment

theorem closed_unwindowed (builder : PlaylistBuilder) (ledger : Ledger Label) (whole : Unwindowed builder ledger) :
    Unwindowed builder.closePendingSegment (ledger.closed builder) := by
  by_cases empty : builder.pendingParts = []
  · rwa [close_nothing_pending builder empty, ledger_nothing_pending ledger builder empty]
  · obtain ⟨ranges, _, closed⟩ := close_pending_eq builder empty
    rw [closed, ledger_closed_pending ledger builder empty]
    intro unwindowed
    have before := whole unwindowed
    have nothing : builder.appendSegment.overflowCount = 0 := by
      have same : builder.appendSegment.config.maxSegments = none := unwindowed
      rw [overflowCount, same]
    change builder.appendSegment.manifest.segments.drop builder.appendSegment.overflowCount = _
    rw [nothing, List.drop_zero, List.map_append, ← before]
    rfl

theorem pushed_unwindowed (builder : PlaylistBuilder) (ledger : Ledger Label) (chunk : Cmaf.CmafChunk) (label : Label)
    (whole : Unwindowed builder ledger) : Unwindowed (builder.accept chunk) (ledger.pushed builder chunk label) := by
  have counted : Unwindowed (builder.counted chunk) ledger := whole
  have started : Unwindowed (builder.startChunk chunk) (ledger.started builder chunk) := by
    rw [start_chunk_eq, Ledger.started]
    by_cases start : chunk.kind.isSegmentStart = true
    · rw [if_pos start, if_pos start]
      exact closed_unwindowed (builder.counted chunk) ledger counted
    · rwa [if_neg start, if_neg start]
  exact started

theorem pushed_opens (builder : PlaylistBuilder) (ledger : Ledger Label) (chunk : Cmaf.CmafChunk) (label : Label)
    (recorded : Recorded builder ledger) (opens : builder.pendingParts = [] ∨ chunk.kind.isSegmentStart = true) :
    (ledger.pushed builder chunk label).openLabels = [label] ∧
      (builder.accept chunk).pendingParts = [builder.nextPart chunk] := by
  have started := started_recorded builder ledger chunk recorded
  have boundary : (builder.startChunk chunk).pendingParts = [] := by
    rw [start_chunk_eq]
    cases opens with
    | inl empty =>
        split
        · simp
        · exact empty
    | inr start => simp [start]
  have nothingOpen := (open_labels_empty_iff _ _ started).mpr boundary
  exact ⟨by simp [Ledger.pushed, nothingOpen], by simp [accept, appendPart, boundary]⟩

theorem pushed_extends (builder : PlaylistBuilder) (ledger : Ledger Label) (chunk : Cmaf.CmafChunk) (label : Label)
    (within : chunk.kind.isSegmentStart = false) :
    ledger.pushed builder chunk label = { ledger with openLabels := ledger.openLabels ++ [label] } ∧
      (builder.accept chunk).pendingParts = builder.pendingParts ++ [builder.nextPart chunk] := by
  have kept : builder.startChunk chunk = builder.counted chunk := by simp [start_chunk_eq, within]
  exact ⟨by simp [Ledger.pushed, Ledger.started, within], by simp [accept, appendPart, kept, counted]⟩

end Ledger

end Lvqr.Hls
