import Lvqr.Hls.Ledger
import Lvqr.Hls.Server

set_option autoImplicit false

-- Where EXT-X-DISCONTINUITY ends up. Each part is labelled with how often the
-- init segment had been replaced when it was pushed.
namespace Lvqr.Hls

open PlaylistBuilder

structure TracedServer where
  server : HlsServer
  replacements : Nat
  ledger : Ledger Nat

namespace TracedServer

def new (config : PlaylistBuilderConfig) : TracedServer := ⟨.new config, 0, .empty⟩

def apply (traced : TracedServer) (op : ServerOp) : TracedServer where
  server := traced.server.apply op
  replacements :=
    match op with
    | .pushInit _ => if traced.server.initSegment.isSome then traced.replacements + 1 else traced.replacements
    | _ => traced.replacements
  ledger :=
    match op with
    | .pushInit _ => traced.ledger
    | .pushChunkBytes chunk _ =>
        if traced.server.builder.Accepts chunk then
          traced.ledger.pushed traced.server.builder chunk traced.replacements
        else traced.ledger
    | .pushDateRange _ => traced.ledger
    | .closePendingSegment => traced.ledger.closed traced.server.builder
    | .finalize => traced.ledger.closed traced.server.builder

end TracedServer

def PushedAfter (replacement : Nat) (closed : ClosedSegment Nat) : Prop :=
  ∀ count ∈ closed.labels, replacement ≤ count

structure WellPlaced (builder : PlaylistBuilder) (replacements : Nat) (ledger : Ledger Nat) : Prop
    extends Recorded builder ledger where
  unmixed : ∀ closed ∈ ledger.history, ∀ a ∈ closed.labels, ∀ b ∈ closed.labels, a = b
  marked : ∀ before closed after, ledger.history = before ++ closed :: after →
    (closed.segment.discontinuity = true ↔
      ∃ replacement, 0 < replacement ∧ replacement ≤ replacements ∧ PushedAfter replacement closed ∧
        ∀ earlier ∈ before, ¬ PushedAfter replacement earlier)

structure Tracked (builder : PlaylistBuilder) (replacements : Nat) (ledger : Ledger Nat) : Prop
    extends WellPlaced builder replacements ledger where
  openCurrent : ∀ count ∈ ledger.openLabels, count = replacements
  nonempty : ∀ closed ∈ ledger.history, closed.labels ≠ []
  bounded : ∀ closed ∈ ledger.history, ∀ count ∈ closed.labels, count ≤ replacements
  pending : builder.pendingDiscontinuity = true ↔
    0 < replacements ∧ ∀ closed ∈ ledger.history, ¬ PushedAfter replacements closed

theorem new_tracked (config : PlaylistBuilderConfig) : Tracked (new config) 0 .empty := by
  refine ⟨⟨new_recorded config, ?_, ?_⟩, ?_, ?_, ?_, ?_⟩ <;> simp [new, Ledger.empty]

theorem tracked_same (builder other : PlaylistBuilder) (replacements : Nat) (ledger : Ledger Nat)
    (tracked : Tracked builder replacements ledger)
    (pendingParts : other.pendingParts = builder.pendingParts)
    (segments : other.manifest.segments = builder.manifest.segments)
    (discontinuity : other.pendingDiscontinuity = builder.pendingDiscontinuity) :
    Tracked other replacements ledger :=
  { tracked with
    toRecorded := recorded_same builder other ledger tracked.toRecorded pendingParts segments
    pending := discontinuity ▸ tracked.pending }

-- A replacement is only safe between segments: parts that are already pending
-- would close under the new mark.
theorem replaced_tracked (builder : PlaylistBuilder) (replacements : Nat) (ledger : Ledger Nat)
    (tracked : Tracked builder replacements ledger) (between : builder.pendingParts = []) :
    Tracked builder.markDiscontinuityPending (replacements + 1) ledger := by
  have nothingOpen := (open_labels_empty_iff builder ledger tracked.toRecorded).mpr between
  have notAfter (closed : ClosedSegment Nat) (member : closed ∈ ledger.history) :
      ¬ PushedAfter (replacements + 1) closed := by
    obtain ⟨count, inside⟩ := List.exists_mem_of_ne_nil _ (tracked.nonempty closed member)
    intro after
    have above := after count inside
    have below := tracked.bounded closed member count inside
    omega
  refine
    { toRecorded := recorded_same builder _ ledger tracked.toRecorded rfl rfl
      unmixed := tracked.unmixed
      marked := ?_
      openCurrent := by simp [nothingOpen]
      nonempty := tracked.nonempty
      bounded := fun closed member count inside => Nat.le_succ_of_le (tracked.bounded closed member count inside)
      pending := ⟨fun _ => ⟨Nat.succ_pos _, notAfter⟩, fun _ => rfl⟩ }
  intro before closed after split
  rw [tracked.marked before closed after split]
  constructor
  · intro first
    obtain ⟨replacement, positive, atMost, rest⟩ := first
    exact ⟨replacement, positive, Nat.le_succ_of_le atMost, rest⟩
  · intro first
    obtain ⟨replacement, positive, atMost, pushedAfter, rest⟩ := first
    have member : closed ∈ ledger.history := by simp [split]
    have notLast : replacement ≠ replacements + 1 := by
      intro same
      subst same
      exact notAfter closed member pushedAfter
    exact ⟨replacement, positive, by omega, pushedAfter, rest⟩

theorem split_snoc {α : Type} (items before after : List α) (last here : α)
    (split : items ++ [last] = before ++ here :: after) :
    (before = items ∧ here = last) ∨ ∃ rest, items = before ++ here :: rest := by
  cases List.eq_nil_or_concat after with
  | inl ended =>
      subst ended
      have ends := List.append_inj' split rfl
      exact .inl ⟨ends.1.symm, (List.singleton_inj.mp ends.2).symm⟩
  | inr longer =>
      obtain ⟨rest, final, rfl⟩ := longer
      refine .inr ⟨rest, ?_⟩
      rw [List.concat_eq_append, ← List.cons_append, ← List.append_assoc] at split
      exact (List.append_inj' split rfl).1

theorem open_pushed_after (builder : PlaylistBuilder) (replacements : Nat) (ledger : Ledger Nat)
    (tracked : Tracked builder replacements ledger) (segment : Segment) :
    PushedAfter replacements ⟨segment, ledger.openLabels⟩ :=
  fun count inside => le_of_eq (tracked.openCurrent count inside).symm

theorem pending_mark_iff (builder : PlaylistBuilder) (replacements : Nat) (ledger : Ledger Nat)
    (tracked : Tracked builder replacements ledger) (segment : Segment) :
    builder.pendingDiscontinuity = true ↔
      ∃ replacement, 0 < replacement ∧ replacement ≤ replacements ∧
        PushedAfter replacement ⟨segment, ledger.openLabels⟩ ∧
        ∀ earlier ∈ ledger.history, ¬ PushedAfter replacement earlier := by
  rw [tracked.pending]
  constructor
  · intro due
    obtain ⟨positive, unmarked⟩ := due
    exact ⟨replacements, positive, le_refl _, open_pushed_after builder replacements ledger tracked segment, unmarked⟩
  · intro first
    obtain ⟨replacement, positive, atMost, _, unmarked⟩ := first
    refine ⟨Nat.lt_of_lt_of_le positive atMost, fun other member after => unmarked other member ?_⟩
    exact fun count inside => le_trans atMost (after count inside)

theorem closed_tracked (builder : PlaylistBuilder) (replacements : Nat) (ledger : Ledger Nat)
    (tracked : Tracked builder replacements ledger) :
    Tracked builder.closePendingSegment replacements (ledger.closed builder) := by
  by_cases empty : builder.pendingParts = []
  · rwa [close_nothing_pending builder empty, ledger_nothing_pending ledger builder empty]
  · have recorded := closed_recorded builder ledger tracked.toRecorded
    have someOpen := (open_labels_empty_iff builder ledger tracked.toRecorded).not.mpr empty
    obtain ⟨ranges, _, closed⟩ := close_pending_eq builder empty
    rw [ledger_closed_pending ledger builder empty] at recorded ⊢
    refine
      { toRecorded := recorded
        unmixed := ?_
        marked := ?_
        openCurrent := by simp
        nonempty := ?_
        bounded := ?_
        pending := ?_ }
    · intro other member a insideA b insideB
      cases List.mem_append.mp member with
      | inl old => exact tracked.unmixed other old a insideA b insideB
      | inr new =>
          rw [List.mem_singleton.mp new] at insideA insideB
          exact (tracked.openCurrent a insideA).trans (tracked.openCurrent b insideB).symm
    · intro before here after split
      cases split_snoc _ _ _ _ _ split with
      | inl isLast =>
          obtain ⟨rfl, rfl⟩ := isLast
          exact pending_mark_iff builder replacements ledger tracked builder.pendingSegment
      | inr isEarlier =>
          obtain ⟨rest, old⟩ := isEarlier
          exact tracked.marked before here rest old
    · intro other member
      cases List.mem_append.mp member with
      | inl old => exact tracked.nonempty other old
      | inr new =>
          rw [List.mem_singleton.mp new]
          exact someOpen
    · intro other member count inside
      cases List.mem_append.mp member with
      | inl old => exact tracked.bounded other old count inside
      | inr new =>
          rw [List.mem_singleton.mp new] at inside
          exact le_of_eq (tracked.openCurrent count inside)
    · have consumed : builder.closePendingSegment.pendingDiscontinuity = false := by rw [closed]; rfl
      rw [consumed]
      refine ⟨fun marked => absurd marked (by simp), fun ⟨_, unmarked⟩ => ?_⟩
      have after := open_pushed_after builder replacements ledger tracked builder.pendingSegment
      exact absurd after (unmarked ⟨builder.pendingSegment, ledger.openLabels⟩ (by simp))

theorem started_tracked (builder : PlaylistBuilder) (replacements : Nat) (ledger : Ledger Nat)
    (chunk : Cmaf.CmafChunk) (tracked : Tracked builder replacements ledger) :
    Tracked (builder.startChunk chunk) replacements (ledger.started builder chunk) := by
  have counted : Tracked (builder.counted chunk) replacements ledger := tracked_same builder _ _ _ tracked rfl rfl rfl
  rw [start_chunk_eq, Ledger.started]
  by_cases start : chunk.kind.isSegmentStart = true
  · rw [if_pos start, if_pos start]
    exact closed_tracked (builder.counted chunk) replacements ledger counted
  · rwa [if_neg start, if_neg start]

theorem pushed_tracked (builder : PlaylistBuilder) (replacements : Nat) (ledger : Ledger Nat)
    (chunk : Cmaf.CmafChunk) (tracked : Tracked builder replacements ledger) :
    Tracked (builder.accept chunk) replacements (ledger.pushed builder chunk replacements) := by
  have started := started_tracked builder replacements ledger chunk tracked
  refine
    { started with
      toRecorded := pushed_recorded builder ledger chunk replacements tracked.toRecorded
      openCurrent := ?_ }
  intro count inside
  cases List.mem_append.mp inside with
  | inl old => exact started.openCurrent count old
  | inr new => exact List.mem_singleton.mp new

def ReplacesBetweenSegments (traced : TracedServer) : ServerOp → Prop
  | .pushInit _ => traced.server.initSegment.isSome → traced.server.builder.pendingParts = []
  | _ => True

instance (traced : TracedServer) (op : ServerOp) : Decidable (ReplacesBetweenSegments traced op) := by
  unfold ReplacesBetweenSegments
  split <;> infer_instance

def TracedServer.Tracked (traced : TracedServer) : Prop :=
  Hls.Tracked traced.server.builder traced.replacements traced.ledger

theorem apply_tracked (traced : TracedServer) (op : ServerOp) (tracked : traced.Tracked)
    (allowed : ReplacesBetweenSegments traced op) : (traced.apply op).Tracked := by
  cases op with
  | pushInit bytes =>
      simp only [TracedServer.Tracked, TracedServer.apply, HlsServer.apply, HlsServer.pushInit]
      by_cases replaced : traced.server.initSegment.isSome = true
      · simpa [replaced] using replaced_tracked _ _ _ tracked (allowed replaced)
      · simpa [replaced, TracedServer.Tracked] using tracked
  | pushChunkBytes chunk body =>
      simp only [TracedServer.Tracked, TracedServer.apply, HlsServer.apply, HlsServer.push_chunk_builder]
      by_cases accepts : traced.server.builder.Accepts chunk
      · rw [if_pos accepts, if_pos accepts]
        exact tracked_same _ _ _ _ (pushed_tracked _ _ _ chunk tracked) rfl rfl rfl
      · rw [if_neg accepts, if_neg accepts]
        exact tracked
  | pushDateRange range =>
      simp only [TracedServer.Tracked, TracedServer.apply, HlsServer.apply, HlsServer.pushDateRange, pushDateRange]
      split
      · exact tracked
      · exact tracked_same _ _ _ _ tracked rfl rfl rfl
  | closePendingSegment => exact tracked_same _ _ _ _ (closed_tracked _ _ _ tracked) rfl rfl rfl
  | finalize => exact tracked_same _ _ _ _ (closed_tracked _ _ _ tracked) rfl rfl rfl

-- When every replacement falls between two segments, the tag is on exactly the
-- first segment after each replacement and no segment straddles one.
theorem discontinuities_well_placed (config : PlaylistBuilderConfig) (ops : List ServerOp)
    (between : Machine.AllSteps ReplacesBetweenSegments TracedServer.apply (.new config) ops) :
    let traced := Machine.run TracedServer.apply (.new config) ops
    WellPlaced traced.server.builder traced.replacements traced.ledger :=
  (Machine.invariant_of_guarded apply_tracked (.new config) ops (new_tracked config) between).toWellPlaced

def keyframeChunk (dts : Nat) : Cmaf.CmafChunk := ⟨"0.mp4", [], dts, 3000, .segment⟩

def replacedBetweenSegments : List ServerOp :=
  [.pushInit [], .pushChunkBytes (keyframeChunk 0) [], .closePendingSegment, .pushInit [],
    .pushChunkBytes (keyframeChunk 3000) [], .closePendingSegment]

theorem replaced_between_segments_well_placed :
    let traced := Machine.run TracedServer.apply (.new .default) replacedBetweenSegments
    WellPlaced traced.server.builder traced.replacements traced.ledger :=
  discontinuities_well_placed .default replacedBetweenSegments (by decide)

-- The pending part was pushed before the replacement, yet its segment takes the
-- mark; the segment that follows the replacement gets none.
theorem mark_lands_before_replacement :
    ¬ ∀ (config : PlaylistBuilderConfig) (ops : List ServerOp),
      let traced := Machine.run TracedServer.apply (.new config) ops
      WellPlaced traced.server.builder traced.replacements traced.ledger := by
  intro placed
  let ops : List ServerOp :=
    [.pushInit [], .pushChunkBytes (keyframeChunk 0) [], .pushInit [], .closePendingSegment]
  let first : Segment := ⟨0, "seg-0.m4s", 3000, [⟨"part-0-0.m4s", 3000, true⟩], none, true⟩
  have split : (Machine.run TracedServer.apply (.new .default) ops).ledger.history = [] ++ ⟨first, [0]⟩ :: [] := by
    decide
  obtain ⟨replacement, positive, _, pushedAfter, _⟩ := ((placed .default ops).marked [] _ [] split).mp rfl
  have before : replacement ≤ 0 := pushedAfter 0 (by simp)
  omega

end Lvqr.Hls
