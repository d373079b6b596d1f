import Lvqr.Hls.Ledger
import Lvqr.Hls.Server

set_option autoImplicit false

-- Runs of a builder beside a ghost account: every accepted chunk, every segment
-- that ever closed, and every URI that was drained.
namespace Lvqr.Hls

open PlaylistBuilder

inductive TraceOp where
  | builder (op : BuilderOp)
  | drainEvictedUris
deriving DecidableEq, Repr

structure BuilderTrace where
  builder : PlaylistBuilder
  accepted : List Cmaf.CmafChunk
  ledger : Ledger Cmaf.CmafChunk
  drained : List String
deriving DecidableEq, Repr

namespace BuilderTrace

def new (config : PlaylistBuilderConfig) : BuilderTrace := ⟨.new config, [], .empty, []⟩

def push (trace : BuilderTrace) (chunk : Cmaf.CmafChunk) : BuilderTrace :=
  if trace.builder.Accepts chunk then
    { trace with
      accepted := trace.accepted ++ [chunk]
      ledger := trace.ledger.pushed trace.builder chunk chunk }
  else trace

def record (trace : BuilderTrace) : BuilderOp → BuilderTrace
  | .push chunk => trace.push chunk
  | .closePendingSegment => { trace with ledger := trace.ledger.closed trace.builder }
  | .pushDateRange _ => trace
  | .markDiscontinuityPending => trace
  | .finalize => { trace with ledger := trace.ledger.closed trace.builder }

def step (trace : BuilderTrace) : TraceOp → BuilderTrace
  | .builder op => { trace.record op with builder := trace.builder.apply op }
  | .drainEvictedUris =>
      { trace with
        builder := trace.builder.drainEvictedUris.2
        drained := trace.drained ++ trace.builder.drainEvictedUris.1 }

-- Every segment that ever closed, in the order of closing.
def segments (trace : BuilderTrace) : List Segment := trace.ledger.history.map ClosedSegment.segment

end BuilderTrace

def Part.media (part : Part) : Nat × Bool := (part.durationTicks, part.independent)

def chunkMedia (chunk : Cmaf.CmafChunk) : Nat × Bool := (chunk.duration, chunk.kind.isIndependent)

def totalTicks (parts : List Part) : Nat := (parts.map Part.durationTicks).sum

def mintedUris (builder : PlaylistBuilder) (segments : List Segment) : List String :=
  segments.flatMap Segment.uris ++ builder.pendingParts.map Part.uri

-- Parts, labels, totals and numbers of what closed and of what is still open.
structure Kept (builder : PlaylistBuilder) (ledger : Ledger Cmaf.CmafChunk) : Prop where
  parts : ∀ closed ∈ ledger.history, closed.segment.parts.map Part.media = closed.labels.map chunkMedia
  openParts : builder.pendingParts.map Part.media = ledger.openLabels.map chunkMedia
  totals : ∀ closed ∈ ledger.history, closed.segment.durationTicks = totalTicks closed.segment.parts
  openTotal : builder.pendingDurationTicks = totalTicks builder.pendingParts
  sequences : ledger.history.map (·.segment.sequence) =
    List.range' builder.config.startingSequence ledger.history.length
  next : builder.nextSequence = builder.config.startingSequence + ledger.history.length
  issued : ∀ uri ∈ mintedUris builder (ledger.history.map ClosedSegment.segment),
    Issued builder.config.uriPrefix builder.nextSequence builder.partIndex uri
  distinct : (mintedUris builder (ledger.history.map ClosedSegment.segment)).Nodup

theorem new_kept (config : PlaylistBuilderConfig) : Kept (new config) .empty := by
  constructor <;> simp [new, Ledger.empty, totalTicks, mintedUris]

-- Only the counters and the open parts of a builder enter its account.
theorem kept_same (builder other : PlaylistBuilder) (ledger : Ledger Cmaf.CmafChunk) (kept : Kept builder ledger)
    (config : other.config = builder.config) (pendingParts : other.pendingParts = builder.pendingParts)
    (pendingDurationTicks : other.pendingDurationTicks = builder.pendingDurationTicks)
    (nextSequence : other.nextSequence = builder.nextSequence) (partIndex : other.partIndex = builder.partIndex) :
    Kept other ledger where
  parts := kept.parts
  openParts := pendingParts ▸ kept.openParts
  totals := kept.totals
  openTotal := by rw [pendingDurationTicks, pendingParts, kept.openTotal]
  sequences := config ▸ kept.sequences
  next := by rw [nextSequence, config, kept.next]
  issued := by
    rw [mintedUris, pendingParts, config, nextSequence, partIndex]
    exact kept.issued
  distinct := by
    rw [mintedUris, pendingParts]
    exact kept.distinct

theorem append_segment_minted (builder : PlaylistBuilder) (segments : List Segment) :
    mintedUris builder.appendSegment (segments ++ [builder.pendingSegment]) =
      mintedUris builder segments ++ [builder.pendingSegment.uri] := by
  simp [mintedUris, appendSegment, Segment.uris, pendingSegment]

theorem append_segment_kept (builder : PlaylistBuilder) (ledger : Ledger Cmaf.CmafChunk) (kept : Kept builder ledger) :
    Kept builder.appendSegment ⟨[], ledger.history ++ [⟨builder.pendingSegment, ledger.openLabels⟩]⟩ where
  parts := by
    intro closed member
    cases List.mem_append.mp member with
    | inl old => exact kept.parts closed old
    | inr new =>
        rw [List.mem_singleton.mp new]
        exact kept.openParts
  openParts := rfl
  totals := by
    intro closed member
    cases List.mem_append.mp member with
    | inl old => exact kept.totals closed old
    | inr new =>
        rw [List.mem_singleton.mp new]
        exact kept.openTotal
  openTotal := rfl
  sequences := by
    have number : builder.pendingSegment.sequence = builder.config.startingSequence + ledger.history.length := kept.next
    rw [List.map_append, kept.sequences, List.length_append, List.length_singleton, List.range'_concat, one_mul]
    simp [number, appendSegment]
  next := by
    have counted : builder.appendSegment.nextSequence = builder.nextSequence + 1 := rfl
    rw [counted, kept.next, List.length_append, List.length_singleton, Nat.add_assoc]
    rfl
  issued := by
    intro uri member
    rw [List.map_append, List.map_singleton, append_segment_minted] at member
    cases List.mem_append.mp member with
    | inl old => exact issued_after_segment _ _ _ _ (kept.issued uri old)
    | inr fresh =>
        rw [List.mem_singleton.mp fresh]
        exact segment_issued _ _
  distinct := by
    rw [List.map_append, List.map_singleton, append_segment_minted]
    refine List.nodup_append.mpr ⟨kept.distinct, by simp, ?_⟩
    intro uri old _ fresh same
    rw [List.mem_singleton.mp fresh] at same
    exact next_segment_not_issued _ _ _ (same ▸ kept.issued uri old)

theorem closed_kept (builder : PlaylistBuilder) (ledger : Ledger Cmaf.CmafChunk) (kept : Kept builder ledger) :
    Kept builder.closePendingSegment (ledger.closed builder) := by
  by_cases empty : builder.pendingParts = []
  · rwa [close_nothing_pending builder empty, ledger_nothing_pending ledger builder empty]
  · obtain ⟨ranges, _, closed⟩ := close_pending_eq builder empty
    rw [closed, ledger_closed_pending ledger builder empty]
    exact kept_same builder.appendSegment _ _ (append_segment_kept builder ledger kept) rfl rfl rfl rfl rfl

theorem counted_kept (builder : PlaylistBuilder) (ledger : Ledger Cmaf.CmafChunk) (chunk : Cmaf.CmafChunk)
    (kept : Kept builder ledger) : Kept (builder.counted chunk) ledger where
  parts := kept.parts
  openParts := kept.openParts
  totals := kept.totals
  openTotal := kept.openTotal
  sequences := kept.sequences
  next := kept.next
  issued := fun uri member => issued_after_part _ _ _ _ (kept.issued uri member)
  distinct := kept.distinct

theorem closed_minted (builder : PlaylistBuilder) (ledger : Ledger Cmaf.CmafChunk) (uri : String)
    (member : uri ∈ mintedUris builder.closePendingSegment
      ((ledger.closed builder).history.map ClosedSegment.segment)) :
    uri ∈ mintedUris builder (ledger.history.map ClosedSegment.segment) ∨ uri = builder.pendingSegment.uri := by
  by_cases empty : builder.pendingParts = []
  · rw [close_nothing_pending builder empty, ledger_nothing_pending ledger builder empty] at member
    exact .inl member
  · obtain ⟨ranges, _, closed⟩ := close_pending_eq builder empty
    rw [closed, ledger_closed_pending ledger builder empty, List.map_append, List.map_singleton] at member
    change uri ∈ mintedUris builder.appendSegment _ at member
    rw [append_segment_minted] at member
    exact (List.mem_append.mp member).imp_right List.mem_singleton.mp

-- The part minted before the boundary chunk closes its predecessor's segment
-- keeps clear of the URI that segment takes.
theorem started_kept (builder : PlaylistBuilder) (ledger : Ledger Cmaf.CmafChunk) (chunk : Cmaf.CmafChunk)
    (kept : Kept builder ledger) :
    Kept (builder.startChunk chunk) (ledger.started builder chunk) ∧
      builder.nextPartUri ∉ mintedUris (builder.startChunk chunk)
        ((ledger.started builder chunk).history.map ClosedSegment.segment) := by
  have counted := counted_kept builder ledger chunk kept
  have fresh : builder.nextPartUri ∉ mintedUris (builder.counted chunk) (ledger.history.map ClosedSegment.segment) :=
    fun member => next_part_not_issued _ _ _ (kept.issued _ member)
  rw [start_chunk_eq, Ledger.started]
  by_cases start : chunk.kind.isSegmentStart = true
  · rw [if_pos start, if_pos start]
    refine ⟨closed_kept (builder.counted chunk) ledger counted, fun member => ?_⟩
    cases closed_minted (builder.counted chunk) ledger _ member with
    | inl old => exact fresh old
    | inr segment => exact part_uri_not_segment _ _ _ _ segment
  · rw [if_neg start, if_neg start]
    exact ⟨counted, fresh⟩

theorem append_part_kept (builder : PlaylistBuilder) (ledger : Ledger Cmaf.CmafChunk) (part : Part)
    (chunk : Cmaf.CmafChunk) (kept : Kept builder ledger) (media : part.media = chunkMedia chunk)
    (issued : Issued builder.config.uriPrefix builder.nextSequence builder.partIndex part.uri)
    (fresh : part.uri ∉ mintedUris builder (ledger.history.map ClosedSegment.segment)) :
    Kept (builder.appendPart part) { ledger with openLabels := ledger.openLabels ++ [chunk] } := by
  have minted : mintedUris (builder.appendPart part) (ledger.history.map ClosedSegment.segment) =
      mintedUris builder (ledger.history.map ClosedSegment.segment) ++ [part.uri] := by
    simp [mintedUris, appendPart]
  exact
    { parts := kept.parts
      openParts := by simp [appendPart, kept.openParts, media]
      totals := kept.totals
      openTotal := by simp [appendPart, kept.openTotal, totalTicks]
      sequences := kept.sequences
      next := kept.next
      issued := by
        intro uri member
        rw [minted] at member
        cases List.mem_append.mp member with
        | inl old => exact kept.issued uri old
        | inr new =>
            rw [List.mem_singleton.mp new]
            exact issued
      distinct := by
        rw [minted]
        refine List.nodup_append.mpr ⟨kept.distinct, by simp, ?_⟩
        intro uri old _ new same
        rw [List.mem_singleton.mp new] at same
        exact fresh (same ▸ old) }

theorem start_chunk_issued (builder : PlaylistBuilder) (chunk : Cmaf.CmafChunk) :
    Issued (builder.startChunk chunk).config.uriPrefix (builder.startChunk chunk).nextSequence
      (builder.startChunk chunk).partIndex builder.nextPartUri := by
  have counted : Issued builder.config.uriPrefix builder.nextSequence (builder.partIndex + 1) builder.nextPartUri :=
    part_issued _ _ _
  rw [start_chunk_eq]
  by_cases start : chunk.kind.isSegmentStart = true
  · rw [if_pos start]
    by_cases empty : (builder.counted chunk).pendingParts = []
    · rw [close_nothing_pending _ empty]
      exact counted
    · obtain ⟨ranges, _, closed⟩ := close_pending_eq (builder.counted chunk) empty
      rw [closed]
      exact issued_after_segment _ _ _ _ counted
  · rw [if_neg start]
    exact counted

theorem pushed_kept (builder : PlaylistBuilder) (ledger : Ledger Cmaf.CmafChunk) (chunk : Cmaf.CmafChunk)
    (kept : Kept builder ledger) : Kept (builder.accept chunk) (ledger.pushed builder chunk chunk) := by
  obtain ⟨started, fresh⟩ := started_kept builder ledger chunk kept
  exact append_part_kept _ _ (builder.nextPart chunk) chunk started rfl (start_chunk_issued builder chunk) fresh

-- What the window let go, and where its URIs are now.
structure Windowed (builder : PlaylistBuilder) (segments : List Segment) (drained : List String)
    (dropped : List Segment) : Prop where
  partition : segments = dropped ++ builder.manifest.segments
  evicted : drained ++ builder.evictedUris = dropped.flatMap Segment.uris
  bounded : ∀ max ∈ builder.config.maxSegments, builder.manifest.segments.length ≤ max
  shown : segments ≠ [] → builder.config.maxSegments ≠ some 0 → builder.manifest.segments ≠ []

theorem windowed_same (builder other : PlaylistBuilder) (segments dropped : List Segment) (drained : List String)
    (windowed : Windowed builder segments drained dropped) (config : other.config = builder.config)
    (live : other.manifest.segments = builder.manifest.segments)
    (evictedUris : other.evictedUris = builder.evictedUris) : Windowed other segments drained dropped where
  partition := live ▸ windowed.partition
  evicted := evictedUris ▸ windowed.evicted
  bounded := by
    rw [config, live]
    exact windowed.bounded
  shown := by
    rw [config, live]
    exact windowed.shown

theorem overflow_fits (builder : PlaylistBuilder) (max : Nat) (configured : max ∈ builder.config.maxSegments) :
    (builder.manifest.segments.drop builder.overflowCount).length ≤ max := by
  have window : builder.config.maxSegments = some max := configured
  have count : builder.overflowCount = builder.manifest.segments.length - max := by
    rw [overflowCount, window]
  rw [List.length_drop, count]
  omega

theorem overflow_leaves (builder : PlaylistBuilder) (some : builder.manifest.segments ≠ [])
    (room : builder.config.maxSegments ≠ Option.some 0) :
    builder.manifest.segments.drop builder.overflowCount ≠ [] := by
  have length := List.length_pos_iff.mpr some
  rw [Ne, List.drop_eq_nil_iff, overflowCount]
  cases window : builder.config.maxSegments with
  | none => simpa using some
  | some max =>
      have positive : max ≠ 0 := fun zero => room (by rw [window, zero])
      simp only
      omega

theorem closed_windowed (builder : PlaylistBuilder) (ledger : Ledger Cmaf.CmafChunk) (drained : List String)
    (dropped : List Segment)
    (windowed : Windowed builder (ledger.history.map ClosedSegment.segment) drained dropped) :
    ∃ dropped, Windowed builder.closePendingSegment ((ledger.closed builder).history.map ClosedSegment.segment)
      drained dropped := by
  by_cases empty : builder.pendingParts = []
  · rw [close_nothing_pending builder empty, ledger_nothing_pending ledger builder empty]
    exact ⟨dropped, windowed⟩
  · obtain ⟨ranges, _, closed⟩ := close_pending_eq builder empty
    rw [closed, ledger_closed_pending ledger builder empty]
    let grown := builder.appendSegment.manifest.segments
    have appended : grown = builder.manifest.segments ++ [builder.pendingSegment] := rfl
    refine ⟨dropped ++ grown.take builder.appendSegment.overflowCount, ?_, ?_, ?_, ?_⟩
    · rw [List.map_append, List.map_singleton, windowed.partition, List.append_assoc, List.append_assoc, ← appended]
      exact congrArg (dropped ++ ·) (List.take_append_drop _ _).symm
    · rw [List.flatMap_append, ← windowed.evicted, List.append_assoc]
    · exact overflow_fits builder.appendSegment
    · exact fun _ room => overflow_leaves builder.appendSegment (by simp [appendSegment]) room

theorem pushed_windowed (builder : PlaylistBuilder) (ledger : Ledger Cmaf.CmafChunk) (drained : List String)
    (dropped : List Segment) (chunk : Cmaf.CmafChunk)
    (windowed : Windowed builder (ledger.history.map ClosedSegment.segment) drained dropped) :
    ∃ dropped, Windowed (builder.accept chunk)
      ((ledger.pushed builder chunk chunk).history.map ClosedSegment.segment) drained dropped := by
  have counted : Windowed (builder.counted chunk) (ledger.history.map ClosedSegment.segment) drained dropped :=
    windowed_same builder _ _ _ _ windowed rfl rfl rfl
  have started : ∃ dropped, Windowed (builder.startChunk chunk)
      ((ledger.started builder chunk).history.map ClosedSegment.segment) drained dropped := by
    rw [start_chunk_eq, Ledger.started]
    by_cases start : chunk.kind.isSegmentStart = true
    · rw [if_pos start, if_pos start]
      exact closed_windowed (builder.counted chunk) ledger drained dropped counted
    · rw [if_neg start, if_neg start]
      exact ⟨dropped, counted⟩
  obtain ⟨gone, started⟩ := started
  exact ⟨gone, windowed_same _ _ _ _ _ started rfl rfl rfl⟩

-- The hint is shown from the first part on, until the playlist ends.
structure Hinted (builder : PlaylistBuilder) (accepted : List Cmaf.CmafChunk) : Prop where
  next : ∀ uri ∈ builder.manifest.preloadHintUri, uri = builder.nextPartUri
  shown : accepted ≠ [] → builder.manifest.ended = false → builder.manifest.preloadHintUri.isSome = true

theorem closed_hinted (builder : PlaylistBuilder) (accepted : List Cmaf.CmafChunk) (hinted : Hinted builder accepted) :
    Hinted builder.closePendingSegment accepted := by
  by_cases empty : builder.pendingParts = []
  · rwa [close_nothing_pending builder empty]
  · obtain ⟨ranges, _, closed⟩ := close_pending_eq builder empty
    rw [closed]
    refine ⟨?_, fun _ _ => rfl⟩
    intro uri shown
    exact (Option.mem_some.mp shown).symm

theorem accepted_hinted (builder : PlaylistBuilder) (chunk : Cmaf.CmafChunk) (accepted : List Cmaf.CmafChunk) :
    Hinted (builder.accept chunk) accepted := by
  refine ⟨?_, fun _ _ => rfl⟩
  intro uri shown
  exact (Option.mem_some.mp shown).symm

structure Conserved (trace : BuilderTrace) : Prop where
  kept : Kept trace.builder trace.ledger
  labels : trace.ledger.labels = trace.accepted
  windowed : ∃ dropped, Windowed trace.builder trace.segments trace.drained dropped
  hinted : Hinted trace.builder trace.accepted
  preliminary : trace.builder.manifest.preliminaryParts = trace.builder.pendingParts

theorem new_conserved (config : PlaylistBuilderConfig) : Conserved (.new config) where
  kept := new_kept config
  labels := rfl
  windowed := ⟨[], rfl, rfl, fun max _ => Nat.zero_le max, fun some => absurd rfl some⟩
  hinted := ⟨by simp [BuilderTrace.new, new], fun some => absurd rfl some⟩
  preliminary := rfl

theorem close_conserved (trace : BuilderTrace) (conserved : Conserved trace) :
    Conserved { trace with
      builder := trace.builder.closePendingSegment, ledger := trace.ledger.closed trace.builder } where
  kept := closed_kept trace.builder trace.ledger conserved.kept
  labels := by rw [closed_labels, conserved.labels]
  windowed := by
    obtain ⟨dropped, windowed⟩ := conserved.windowed
    exact closed_windowed trace.builder trace.ledger trace.drained dropped windowed
  hinted := closed_hinted trace.builder trace.accepted conserved.hinted
  preliminary := by
    by_cases empty : trace.builder.pendingParts = []
    · rw [close_nothing_pending trace.builder empty]
      exact conserved.preliminary
    · obtain ⟨ranges, _, closed⟩ := close_pending_eq trace.builder empty
      rw [closed]
      rfl

theorem step_push_accepted (trace : BuilderTrace) (chunk : Cmaf.CmafChunk) (accepts : trace.builder.Accepts chunk) :
    trace.step (.builder (.push chunk)) =
      { trace with
        builder := trace.builder.accept chunk
        accepted := trace.accepted ++ [chunk]
        ledger := trace.ledger.pushed trace.builder chunk chunk } := by
  simp [BuilderTrace.step, BuilderTrace.record, BuilderTrace.push, accepts, apply_push_accepted]

theorem step_push_rejected (trace : BuilderTrace) (chunk : Cmaf.CmafChunk) (rejects : ¬ trace.builder.Accepts chunk) :
    trace.step (.builder (.push chunk)) = trace := by
  simp [BuilderTrace.step, BuilderTrace.record, BuilderTrace.push, rejects, apply_push_rejected]

theorem push_conserved (trace : BuilderTrace) (chunk : Cmaf.CmafChunk) (conserved : Conserved trace) :
    Conserved (trace.step (.builder (.push chunk))) := by
  by_cases accepts : trace.builder.Accepts chunk
  · rw [step_push_accepted trace chunk accepts]
    obtain ⟨dropped, windowed⟩ := conserved.windowed
    exact
      { kept := pushed_kept trace.builder trace.ledger chunk conserved.kept
        labels := by rw [pushed_labels, conserved.labels]
        windowed := pushed_windowed trace.builder trace.ledger trace.drained dropped chunk windowed
        hinted := accepted_hinted trace.builder chunk _
        preliminary := rfl }
  · rwa [step_push_rejected trace chunk accepts]

theorem finalize_conserved (trace : BuilderTrace) (conserved : Conserved trace) :
    Conserved (trace.step (.builder .finalize)) := by
  have closed := close_conserved trace conserved
  obtain ⟨dropped, windowed⟩ := closed.windowed
  exact
    { kept := kept_same _ trace.builder.finalize _ closed.kept rfl rfl rfl rfl rfl
      labels := closed.labels
      windowed := ⟨dropped, windowed_same _ trace.builder.finalize _ _ _ windowed rfl rfl rfl⟩
      hinted := ⟨fun uri shown => absurd shown (Option.not_mem_none uri), fun _ live => Bool.noConfusion live⟩
      preliminary := (finalize_pending_parts trace.builder).symm }

theorem push_date_range_eq (builder : PlaylistBuilder) (range : DateRange) :
    ∃ ranges, builder.pushDateRange range =
      { builder with manifest := { builder.manifest with dateRanges := ranges } } := by
  rw [pushDateRange]
  split
  · exact ⟨builder.manifest.dateRanges, rfl⟩
  · exact ⟨_, rfl⟩

theorem step_conserved (trace : BuilderTrace) (op : TraceOp) (conserved : Conserved trace) :
    Conserved (trace.step op) := by
  obtain ⟨dropped, windowed⟩ := conserved.windowed
  cases op with
  | builder op =>
      cases op with
      | push chunk => exact push_conserved trace chunk conserved
      | closePendingSegment => exact close_conserved trace conserved
      | pushDateRange range =>
          obtain ⟨ranges, pushed⟩ := push_date_range_eq trace.builder range
          have stepped : trace.step (.builder (.pushDateRange range)) =
              { trace with builder := { trace.builder with
                  manifest := { trace.builder.manifest with dateRanges := ranges } } } := by
            rw [← pushed]
            rfl
          rw [stepped]
          exact
            { kept := kept_same _ _ _ conserved.kept rfl rfl rfl rfl rfl
              labels := conserved.labels
              windowed := ⟨dropped, windowed_same _ _ _ _ _ windowed rfl rfl rfl⟩
              hinted := ⟨conserved.hinted.next, conserved.hinted.shown⟩
              preliminary := conserved.preliminary }
      | markDiscontinuityPending =>
          exact
            { kept := kept_same _ _ _ conserved.kept rfl rfl rfl rfl rfl
              labels := conserved.labels
              windowed := ⟨dropped, windowed_same _ _ _ _ _ windowed rfl rfl rfl⟩
              hinted := ⟨conserved.hinted.next, conserved.hinted.shown⟩
              preliminary := conserved.preliminary }
      | finalize => exact finalize_conserved trace conserved
  | drainEvictedUris =>
      exact
        { kept := kept_same _ _ _ conserved.kept rfl rfl rfl rfl rfl
          labels := conserved.labels
          windowed := ⟨dropped, windowed.partition, by
            rw [← windowed.evicted]
            exact List.append_nil _, windowed.bounded, windowed.shown⟩
          hinted := ⟨conserved.hinted.next, conserved.hinted.shown⟩
          preliminary := conserved.preliminary }

theorem apply_config (builder : PlaylistBuilder) (op : BuilderOp) : (builder.apply op).config = builder.config := by
  cases op with
  | push chunk =>
      by_cases accepts : builder.Accepts chunk
      · have started : (builder.startChunk chunk).config = builder.config := by
          rw [start_chunk_eq]
          split
          · exact close_config (builder.counted chunk)
          · rfl
        rw [apply_push_accepted builder chunk accepts]
        exact started
      · rw [apply_push_rejected builder chunk accepts]
  | closePendingSegment => exact close_config builder
  | pushDateRange range =>
      obtain ⟨ranges, pushed⟩ := push_date_range_eq builder range
      rw [apply, pushed]
  | markDiscontinuityPending => rfl
  | finalize => exact close_config builder

theorem step_config (config : PlaylistBuilderConfig) (trace : BuilderTrace) (op : TraceOp)
    (same : trace.builder.config = config) : (trace.step op).builder.config = config := by
  cases op with
  | builder op => exact (apply_config trace.builder op).trans same
  | drainEvictedUris => exact same

theorem trace_config (config : PlaylistBuilderConfig) (trace : BuilderTrace) (ops : List TraceOp)
    (same : trace.builder.config = config) : (Machine.run BuilderTrace.step trace ops).builder.config = config :=
  Machine.invariant_of_run (step_config config) trace ops same

end Lvqr.Hls
