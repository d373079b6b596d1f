import Lvqr.Hls.Ledger

set_option autoImplicit false

-- The seconds a media playlist lists, against the timescale of the broadcaster that
-- emitted the chunks.
namespace Lvqr.Hls

open PlaylistBuilder

-- The duration of an accepted chunk and the timescale of its broadcaster.
structure Stamp where
  ticks : Nat
  timescale : Nat
deriving DecidableEq, Repr

-- The quotient that the renderer prints, as an f64 to six decimals; a timescale of zero
-- lists zero seconds.
def seconds (ticks timescale : Nat) : ℚ := ticks / timescale

def Stamp.seconds (stamp : Stamp) : ℚ := Hls.seconds stamp.ticks stamp.timescale

def Part.seconds (timescale : Nat) (part : Part) : ℚ := Hls.seconds part.durationTicks timescale

def Segment.seconds (timescale : Nat) (segment : Segment) : ℚ := Hls.seconds segment.durationTicks timescale

-- The history's newest entries, those of the listed segments.
def Ledger.shown {Label : Type} (ledger : Ledger Label) (builder : PlaylistBuilder) : List (ClosedSegment Label) :=
  ledger.history.drop (ledger.history.length - builder.manifest.segments.length)

structure TrueSegment (timescale : Nat) (closed : ClosedSegment Stamp) : Prop where
  parts : closed.segment.parts.map (Part.seconds timescale) = closed.labels.map Stamp.seconds
  whole : closed.segment.seconds timescale = (closed.labels.map Stamp.seconds).sum

-- Whatever the playlist lists takes the seconds that its chunks take.
structure TrueSeconds (builder : PlaylistBuilder) (ledger : Ledger Stamp) : Prop where
  segments : ∀ closed ∈ ledger.shown builder, TrueSegment builder.manifest.timescale closed
  parts : builder.manifest.preliminaryParts.map (Part.seconds builder.manifest.timescale) =
    ledger.openLabels.map Stamp.seconds

structure TimedSegment (closed : ClosedSegment Stamp) : Prop where
  parts : closed.segment.parts.map Part.durationTicks = closed.labels.map Stamp.ticks
  whole : closed.segment.durationTicks = (closed.labels.map Stamp.ticks).sum
  positive : ∀ stamp ∈ closed.labels, 0 < stamp.ticks

structure Timed (builder : PlaylistBuilder) (ledger : Ledger Stamp) : Prop where
  window : builder.manifest.segments.length ≤ ledger.history.length
  listed : (ledger.shown builder).map ClosedSegment.segment = builder.manifest.segments
  closed : ∀ closed ∈ ledger.history, TimedSegment closed
  shown : builder.manifest.preliminaryParts = builder.pendingParts
  parts : builder.pendingParts.map Part.durationTicks = ledger.openLabels.map Stamp.ticks
  whole : builder.pendingDurationTicks = (ledger.openLabels.map Stamp.ticks).sum
  positive : ∀ stamp ∈ ledger.openLabels, 0 < stamp.ticks

-- All that is listed comes from broadcasters of the playlist's own timescale.
structure OwnTimescale (builder : PlaylistBuilder) (ledger : Ledger Stamp) : Prop where
  segments : ∀ closed ∈ ledger.shown builder, ∀ stamp ∈ closed.labels, stamp.timescale = builder.manifest.timescale
  parts : ∀ stamp ∈ ledger.openLabels, stamp.timescale = builder.manifest.timescale

theorem seconds_eq_iff (ticks timescale other : Nat) (positive : 0 < ticks) :
    seconds ticks timescale = seconds ticks other ↔ other = timescale := by
  have nonzero : (ticks : ℚ) ≠ 0 := by exact_mod_cast Nat.pos_iff_ne_zero.mp positive
  rw [seconds, seconds, div_eq_mul_inv, div_eq_mul_inv, mul_right_inj' nonzero, inv_inj, Nat.cast_inj, eq_comm]

theorem seconds_add (first second timescale : Nat) :
    seconds (first + second) timescale = seconds first timescale + seconds second timescale := by
  rw [seconds, Nat.cast_add, add_div]
  rfl

theorem part_seconds_map (timescale : Nat) (parts : List Part) :
    parts.map (Part.seconds timescale) = (parts.map Part.durationTicks).map (seconds · timescale) := by
  rw [List.map_map]
  rfl

theorem stamp_seconds_iff (timescale : Nat) (stamps : List Stamp) (positive : ∀ stamp ∈ stamps, 0 < stamp.ticks) :
    (stamps.map Stamp.ticks).map (seconds · timescale) = stamps.map Stamp.seconds ↔
      ∀ stamp ∈ stamps, stamp.timescale = timescale := by
  rw [List.map_map, List.map_inj_left]
  refine forall₂_congr fun stamp member => ?_
  exact seconds_eq_iff stamp.ticks timescale stamp.timescale (positive stamp member)

theorem seconds_sum (timescale : Nat) (ticks : List Nat) :
    seconds ticks.sum timescale = (ticks.map (seconds · timescale)).sum := by
  induction ticks with
  | nil => simp [seconds]
  | cons first rest ih => rw [List.sum_cons, List.map_cons, List.sum_cons, seconds_add, ih]

theorem true_segment_iff (timescale : Nat) (closed : ClosedSegment Stamp) (timed : TimedSegment closed) :
    TrueSegment timescale closed ↔ ∀ stamp ∈ closed.labels, stamp.timescale = timescale := by
  rw [← stamp_seconds_iff timescale closed.labels timed.positive, ← timed.parts, ← part_seconds_map]
  refine ⟨TrueSegment.parts, fun parts => ⟨parts, ?_⟩⟩
  rw [Segment.seconds, timed.whole, seconds_sum, ← timed.parts, ← part_seconds_map, parts]

theorem shown_sublist {Label : Type} (ledger : Ledger Label) (builder : PlaylistBuilder) :
    ∀ closed ∈ ledger.shown builder, closed ∈ ledger.history := fun _ member => List.mem_of_mem_drop member

theorem true_seconds_iff (builder : PlaylistBuilder) (ledger : Ledger Stamp) (timed : Timed builder ledger) :
    TrueSeconds builder ledger ↔ OwnTimescale builder ledger := by
  have parts : builder.manifest.preliminaryParts.map (Part.seconds builder.manifest.timescale) =
      ledger.openLabels.map Stamp.seconds ↔ ∀ stamp ∈ ledger.openLabels, stamp.timescale = builder.manifest.timescale := by
    rw [timed.shown, part_seconds_map, timed.parts]
    exact stamp_seconds_iff _ ledger.openLabels timed.positive
  have segments : ∀ closed ∈ ledger.shown builder, (TrueSegment builder.manifest.timescale closed ↔
      ∀ stamp ∈ closed.labels, stamp.timescale = builder.manifest.timescale) := fun closed member =>
    true_segment_iff _ closed (timed.closed closed (shown_sublist ledger builder closed member))
  constructor
  · intro true
    exact ⟨fun closed member => (segments closed member).mp (true.segments closed member), parts.mp true.parts⟩
  · intro own
    exact ⟨fun closed member => (segments closed member).mpr (own.segments closed member), parts.mpr own.parts⟩

structure SameListing (builder other : PlaylistBuilder) : Prop where
  timescale : other.manifest.timescale = builder.manifest.timescale
  segments : other.manifest.segments = builder.manifest.segments
  preliminary : other.manifest.preliminaryParts = builder.manifest.preliminaryParts
  pending : other.pendingParts = builder.pendingParts
  ticks : other.pendingDurationTicks = builder.pendingDurationTicks

theorem same_shown {Label : Type} (builder other : PlaylistBuilder) (ledger : Ledger Label)
    (same : SameListing builder other) : ledger.shown other = ledger.shown builder := by
  rw [Ledger.shown, same.segments, Ledger.shown]

theorem same_timed (builder other : PlaylistBuilder) (ledger : Ledger Stamp) (same : SameListing builder other)
    (timed : Timed builder ledger) : Timed other ledger where
  window := same.segments ▸ timed.window
  listed := by rw [same_shown builder other ledger same, same.segments, timed.listed]
  closed := timed.closed
  shown := by rw [same.preliminary, same.pending, timed.shown]
  parts := same.pending ▸ timed.parts
  whole := same.ticks ▸ timed.whole
  positive := timed.positive

theorem same_own (builder other : PlaylistBuilder) (ledger : Ledger Stamp) (same : SameListing builder other) :
    OwnTimescale other ledger ↔ OwnTimescale builder ledger := by
  have shown := same_shown builder other ledger same
  constructor
  · intro own
    exact ⟨by simpa only [shown, same.timescale] using own.segments, by simpa only [same.timescale] using own.parts⟩
  · intro own
    exact ⟨by simpa only [shown, same.timescale] using own.segments, by simpa only [same.timescale] using own.parts⟩

theorem new_timed (config : PlaylistBuilderConfig) : Timed (.new config) .empty where
  window := Nat.le_refl 0
  listed := rfl
  closed := by simp [Ledger.empty]
  shown := rfl
  parts := rfl
  whole := rfl
  positive := by simp [Ledger.empty]

theorem new_own (config : PlaylistBuilderConfig) : OwnTimescale (.new config) .empty where
  segments := by simp [Ledger.empty, Ledger.shown]
  parts := by simp [Ledger.empty]

theorem overflow_le (builder : PlaylistBuilder) : builder.overflowCount ≤ builder.manifest.segments.length := by
  rw [overflowCount]
  split
  · exact Nat.zero_le _
  · exact Nat.sub_le _ _

-- The entry of the segment that closes comes last, and eviction takes from the front.
theorem closed_shown (builder : PlaylistBuilder) (ledger : Ledger Stamp) (timed : Timed builder ledger)
    (pending : builder.pendingParts ≠ []) : (ledger.closed builder).shown builder.closePendingSegment =
      (ledger.shown builder ++ [(⟨builder.pendingSegment, ledger.openLabels⟩ : ClosedSegment Stamp)]).drop
        builder.appendSegment.overflowCount := by
  obtain ⟨ranges, _, closed⟩ := close_pending_eq builder pending
  have grown : builder.appendSegment.manifest.segments.length = builder.manifest.segments.length + 1 := by
    simp [appendSegment]
  have fewer := overflow_le builder.appendSegment
  have within := timed.window
  rw [ledger_closed_pending ledger builder pending, Ledger.shown, Ledger.shown, closed]
  simp only [List.length_append, List.length_singleton, List.length_drop, grown]
  rw [← List.drop_append_of_le_length (Nat.sub_le _ _), List.drop_drop]
  congr 1
  omega

theorem closed_timed (builder : PlaylistBuilder) (ledger : Ledger Stamp) (timed : Timed builder ledger) :
    Timed builder.closePendingSegment (ledger.closed builder) := by
  by_cases empty : builder.pendingParts = []
  · rwa [close_nothing_pending builder empty, ledger_nothing_pending ledger builder empty]
  · have shown := closed_shown builder ledger timed empty
    have within := timed.window
    obtain ⟨ranges, _, closed⟩ := close_pending_eq builder empty
    refine ⟨?_, ?_, ?_, ?_, ?_, ?_, ?_⟩
    · rw [closed, ledger_closed_pending ledger builder empty]
      simp only [appendSegment, List.length_drop, List.length_append, List.length_singleton]
      omega
    · rw [shown, List.map_drop, List.map_append, timed.listed, closed]
      rfl
    · rw [ledger_closed_pending ledger builder empty]
      intro other member
      rcases List.mem_append.mp member with old | new
      · exact timed.closed other old
      · rw [List.mem_singleton.mp new]
        exact ⟨timed.parts, timed.whole, timed.positive⟩
    · rw [closed]
      rfl
    · rw [closed, ledger_closed_pending ledger builder empty]
      rfl
    · rw [closed, ledger_closed_pending ledger builder empty]
      rfl
    · rw [ledger_closed_pending ledger builder empty]
      simp

theorem closed_own (builder : PlaylistBuilder) (ledger : Ledger Stamp) (timed : Timed builder ledger)
    (own : OwnTimescale builder ledger) : OwnTimescale builder.closePendingSegment (ledger.closed builder) := by
  by_cases empty : builder.pendingParts = []
  · rwa [close_nothing_pending builder empty, ledger_nothing_pending ledger builder empty]
  · refine ⟨?_, ?_⟩
    · rw [closed_shown builder ledger timed empty, close_timescale]
      intro other member
      rcases List.mem_append.mp (List.mem_of_mem_drop member) with old | new
      · exact own.segments other old
      · rw [List.mem_singleton.mp new]
        exact own.parts
    · rw [ledger_closed_pending ledger builder empty]
      simp

theorem counted_same (builder : PlaylistBuilder) (chunk : Cmaf.CmafChunk) :
    SameListing builder (builder.counted chunk) := ⟨rfl, rfl, rfl, rfl, rfl⟩

theorem started_timed (builder : PlaylistBuilder) (ledger : Ledger Stamp) (chunk : Cmaf.CmafChunk)
    (timed : Timed builder ledger) : Timed (builder.startChunk chunk) (ledger.started builder chunk) := by
  have counted := same_timed builder _ ledger (counted_same builder chunk) timed
  rw [start_chunk_eq, Ledger.started]
  split
  · exact closed_timed (builder.counted chunk) ledger counted
  · exact counted

theorem started_own (builder : PlaylistBuilder) (ledger : Ledger Stamp) (chunk : Cmaf.CmafChunk)
    (timed : Timed builder ledger) (own : OwnTimescale builder ledger) :
    OwnTimescale (builder.startChunk chunk) (ledger.started builder chunk) := by
  have countedTimed := same_timed builder _ ledger (counted_same builder chunk) timed
  have counted := (same_own builder _ ledger (counted_same builder chunk)).mpr own
  rw [start_chunk_eq, Ledger.started]
  split
  · exact closed_own (builder.counted chunk) ledger countedTimed counted
  · exact counted

theorem start_timescale (builder : PlaylistBuilder) (chunk : Cmaf.CmafChunk) :
    (builder.startChunk chunk).manifest.timescale = builder.manifest.timescale := by
  rw [start_chunk_eq]
  split
  · exact close_timescale (builder.counted chunk)
  · rfl

theorem accept_timescale (builder : PlaylistBuilder) (chunk : Cmaf.CmafChunk) :
    (builder.accept chunk).manifest.timescale = builder.manifest.timescale := start_timescale builder chunk

theorem accept_timed (builder : PlaylistBuilder) (ledger : Ledger Stamp) (chunk : Cmaf.CmafChunk) (timescale : Nat)
    (positive : 0 < chunk.duration) (timed : Timed builder ledger) :
    Timed (builder.accept chunk) (ledger.pushed builder chunk ⟨chunk.duration, timescale⟩) := by
  have started := started_timed builder ledger chunk timed
  refine ⟨started.window, started.listed, started.closed, rfl, ?_, ?_, ?_⟩
  · show ((builder.startChunk chunk).pendingParts ++ [builder.nextPart chunk]).map Part.durationTicks =
      ((ledger.started builder chunk).openLabels ++ [(⟨chunk.duration, timescale⟩ : Stamp)]).map Stamp.ticks
    rw [List.map_append, List.map_append, started.parts]
    rfl
  · show (builder.startChunk chunk).pendingDurationTicks + chunk.duration =
      (((ledger.started builder chunk).openLabels ++ [(⟨chunk.duration, timescale⟩ : Stamp)]).map Stamp.ticks).sum
    rw [started.whole, List.map_append, List.sum_append]
    rfl
  · intro stamp member
    rcases List.mem_append.mp member with old | new
    · exact started.positive stamp old
    · rw [List.mem_singleton.mp new]
      exact positive

theorem accept_own_iff (builder : PlaylistBuilder) (ledger : Ledger Stamp) (chunk : Cmaf.CmafChunk) (timescale : Nat)
    (timed : Timed builder ledger) (own : OwnTimescale builder ledger) :
    OwnTimescale (builder.accept chunk) (ledger.pushed builder chunk ⟨chunk.duration, timescale⟩) ↔
      timescale = builder.manifest.timescale := by
  have started := started_own builder ledger chunk timed own
  have same := start_timescale builder chunk
  constructor
  · intro after
    have last := after.parts ⟨chunk.duration, timescale⟩ (List.mem_append_right _ List.mem_cons_self)
    exact last.trans (accept_timescale builder chunk)
  · intro agrees
    refine ⟨started.segments, ?_⟩
    intro stamp member
    rcases List.mem_append.mp member with old | new
    · exact started.parts stamp old
    · rw [List.mem_singleton.mp new]
      exact agrees.trans same.symm

theorem finalize_timed (builder : PlaylistBuilder) (ledger : Ledger Stamp) (timed : Timed builder ledger) :
    Timed builder.finalize (ledger.closed builder) := by
  have closed := closed_timed builder ledger timed
  exact ⟨closed.window, closed.listed, closed.closed, (close_pending_parts builder).symm, closed.parts, closed.whole,
    closed.positive⟩

theorem finalize_own (builder : PlaylistBuilder) (ledger : Ledger Stamp) (timed : Timed builder ledger)
    (own : OwnTimescale builder ledger) : OwnTimescale builder.finalize (ledger.closed builder) := by
  have closed := closed_own builder ledger timed own
  exact ⟨closed.segments, closed.parts⟩

end Lvqr.Hls
