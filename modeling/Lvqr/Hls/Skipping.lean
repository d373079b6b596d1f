import Lvqr.Hls.Conservation
import Lvqr.Hls.Routing
import Lvqr.Hls.Seconds

set_option autoImplicit false

-- The target duration a playlist renders, the boundary it lets clients skip from,
-- and what a delta playlist keeps.
namespace Lvqr.Hls

open PlaylistBuilder

def skipUntilTicks (skipUntil : Duration) (timescale : Nat) : Nat :=
  min ⌊Decimal.f64 (asSecsF64 skipUntil * Decimal.f64 timescale)⌋.toNat (2 ^ 64 - 1)

-- A timescale of zero is read as one, as the observed ceiling reads it.
def Segment.roundedSecs (timescale : Nat) (segment : Segment) : Nat :=
  (2 * segment.durationTicks + max timescale 1) / (2 * max timescale 1)

def Manifest.keptTicks (manifest : Manifest) (skipped : Nat) : Nat :=
  ((manifest.segments.drop skipped).map Segment.durationTicks).sum

structure Manifest.Consistent (manifest : Manifest) : Prop where
  target : ∀ segment ∈ manifest.segments, segment.roundedSecs manifest.timescale ≤ manifest.effectiveTarget
  boundary : ∃ skip ∈ manifest.serverControl.canSkipUntil, 6 * (manifest.effectiveTarget : ℚ) ≤ asSecsF32 skip
  kept : 0 < manifest.deltaSkipCount → ∀ skip ∈ manifest.serverControl.canSkipUntil,
    asSecsF32 skip ≤ seconds (manifest.keptTicks manifest.deltaSkipCount) manifest.timescale ∧
      4 * (manifest.effectiveTarget : ℚ) ≤ seconds (manifest.keptTicks manifest.deltaSkipCount) manifest.timescale

-- The two products that pass through floats come out as they are.
structure FloatExact (config : PlaylistBuilderConfig) : Prop where
  rendered : asSecsF32 (fromSecs (config.targetDurationSecs * 6)) = (config.targetDurationSecs * 6 : Nat)
  ticks : skipUntilTicks (fromSecs (config.targetDurationSecs * 6)) config.timescale =
    config.targetDurationSecs * 6 * config.timescale

theorem as_secs_whole (float : ℚ → ℚ) (zero : float 0 = 0) (secs : Nat) (fits : float secs = secs) :
    float (float (fromSecs secs / 1000000000 : Nat) +
      float (float (fromSecs secs % 1000000000 : Nat) / 1000000000)) = secs := by
  have whole : fromSecs secs / 1000000000 = secs := Nat.mul_div_cancel _ (by decide)
  have rest : fromSecs secs % 1000000000 = 0 := Nat.mul_mod_left _ _
  simp [whole, rest, zero, fits]

theorem small_float_exact (config : PlaylistBuilderConfig) (target : config.targetDurationSecs * 6 < 2 ^ 24)
    (timescale : config.timescale < 2 ^ 32)
    (product : config.targetDurationSecs * 6 * config.timescale < 2 ^ 53) : FloatExact config where
  rendered := as_secs_whole Decimal.f32 (by simpa using Decimal.f32_nat 0 (by decide)) _ (Decimal.f32_nat _ target)
  ticks := by
    have secs : asSecsF64 (fromSecs (config.targetDurationSecs * 6)) = (config.targetDurationSecs * 6 : Nat) :=
      as_secs_whole Decimal.f64 (by simpa using Decimal.f64_nat 0 (by decide)) _ (Decimal.f64_nat _ (by omega))
    rw [skipUntilTicks, secs, Decimal.f64_nat config.timescale (by omega), ← Nat.cast_mul,
      Decimal.f64_nat _ product, Int.floor_natCast, Int.toNat_natCast]
    exact Nat.min_eq_left (by omega)

theorem skip_from_keeps (total skipUntilTicks minRemainingTicks elapsed : Nat) (segments : List Segment)
    (skips : 0 < skipFrom total skipUntilTicks minRemainingTicks elapsed segments) :
    skipUntilTicks < total - (elapsed +
      ((segments.take (skipFrom total skipUntilTicks minRemainingTicks elapsed segments)).map
        Segment.durationTicks).sum) := by
  induction segments generalizing elapsed with
  | nil => exact absurd skips (Nat.lt_irrefl 0)
  | cons segment rest ih =>
      simp only [skipFrom] at skips ⊢
      split
      · rename_i enough
        rw [List.take_succ_cons, List.map_cons, List.sum_cons, ← Nat.add_assoc]
        cases Nat.eq_zero_or_pos (skipFrom total skipUntilTicks minRemainingTicks (elapsed + segment.durationTicks) rest) with
        | inl last =>
            rw [last]
            exact enough.1
        | inr more => exact ih _ more
      · rename_i short
        rw [if_neg short] at skips
        exact absurd skips (Nat.lt_irrefl 0)

-- What a playlist keeps of its configuration.
structure Configured (config : PlaylistBuilderConfig) (builder : PlaylistBuilder) : Prop where
  same : builder.config = config
  timescale : builder.manifest.timescale = config.timescale
  target : builder.manifest.targetDurationSecs = config.targetDurationSecs
  skip : builder.manifest.serverControl.canSkipUntil = some (fromSecs (config.targetDurationSecs * 6))

def ShortSegments (config : PlaylistBuilderConfig) (segments : List Segment) : Prop :=
  ∀ segment ∈ segments, segment.durationTicks ≤ config.targetDurationSecs * max config.timescale 1

theorem short_rounded (config : PlaylistBuilderConfig) (segment : Segment)
    (short : segment.durationTicks ≤ config.targetDurationSecs * max config.timescale 1) :
    segment.roundedSecs config.timescale ≤ config.targetDurationSecs := by
  have positive : 0 < 2 * max config.timescale 1 := by omega
  rw [Segment.roundedSecs, Nat.div_le_iff_le_mul positive]
  have doubled : config.targetDurationSecs * (2 * max config.timescale 1) =
      2 * (config.targetDurationSecs * max config.timescale 1) := Nat.mul_left_comm _ _ _
  omega

-- The largest u32 is no target whose sixfold survives the rendering.
theorem top_target_inexact (config : PlaylistBuilderConfig) (top : config.targetDurationSecs = 2 ^ 32 - 1) :
    ¬ FloatExact config := by
  intro exact
  have rendered := exact.rendered
  rw [top] at rendered
  revert rendered
  decide +kernel

-- A ceiling cut to 32 bits hides a long segment only from the target, not from
-- the rounded duration.
theorem ceiling_short (config : PlaylistBuilderConfig) (segment : Segment) (exact : FloatExact config)
    (u32 : config.targetDurationSecs < 2 ^ 32)
    (observed : (segment.durationTicks + max config.timescale 1 - 1) / max config.timescale 1 % 2 ^ 32 ≤
      config.targetDurationSecs)
    (rounded : segment.roundedSecs config.timescale ≤ config.targetDurationSecs) :
    segment.durationTicks ≤ config.targetDurationSecs * max config.timescale 1 := by
  have positive : 0 < max config.timescale 1 := by omega
  rw [Segment.roundedSecs] at rounded
  revert positive observed rounded
  generalize max config.timescale 1 = ts
  intro observed rounded positive
  by_cases small : (segment.durationTicks + ts - 1) / ts < 2 ^ 32
  · rw [Nat.mod_eq_of_lt small, Nat.div_le_iff_le_mul positive] at observed
    omega
  · have below : config.targetDurationSecs < 2 ^ 32 - 1 := by
      have notTop : config.targetDurationSecs ≠ 2 ^ 32 - 1 := fun top => top_target_inexact config top exact
      omega
    have long : 2 ^ 32 * ts ≤ segment.durationTicks + ts - 1 := (Nat.le_div_iff_mul_le positive).mp (Nat.not_lt.mp small)
    rw [Nat.div_le_iff_le_mul (by omega)] at rounded
    have scaled : config.targetDurationSecs * (2 * ts) ≤ (2 ^ 32 - 2) * (2 * ts) := Nat.mul_le_mul_right _ (by omega)
    omega

section Rendered

variable {config : PlaylistBuilderConfig} {builder : PlaylistBuilder} (configured : Configured config builder)

include configured

theorem short_effective_target (short : ShortSegments config builder.manifest.segments) :
    builder.manifest.effectiveTarget = config.targetDurationSecs := by
  have observed : builder.manifest.observedCeil ≤ config.targetDurationSecs := by
    rw [Manifest.observedCeil, configured.timescale]
    cases longest : (builder.manifest.segments.map Segment.durationTicks).max? with
    | none => exact Nat.zero_le _
    | some ticks =>
        obtain ⟨segment, member, rfl⟩ := List.mem_map.mp (List.max?_mem longest)
        have positive : 0 < max config.timescale 1 := by omega
        refine (Nat.mod_le _ _).trans ?_
        rw [Nat.div_le_iff_le_mul positive]
        have bounded := short segment member
        omega
  rw [Manifest.effectiveTarget, configured.target]
  exact Nat.max_eq_left observed

theorem delta_skips (exact : FloatExact config) (skips : 0 < builder.manifest.deltaSkipCount) :
    0 < config.timescale ∧
      config.targetDurationSecs * 6 * config.timescale < builder.manifest.keptTicks builder.manifest.deltaSkipCount := by
  have scaled : builder.manifest.timescale ≠ 0 := by
    intro zero
    simp [Manifest.deltaSkipCount, configured.skip, zero] at skips
  have counted : builder.manifest.deltaSkipCount =
      skipFrom (builder.manifest.segments.map Segment.durationTicks).sum
        (skipUntilTicks (fromSecs (config.targetDurationSecs * 6)) builder.manifest.timescale)
        (4 * (builder.manifest.targetDurationSecs * builder.manifest.timescale)) 0 builder.manifest.segments := by
    rw [Manifest.deltaSkipCount, configured.skip] at skips ⊢
    simp only at skips ⊢
    split at skips
    · exact absurd skips (Nat.lt_irrefl 0)
    · rename_i some
      split at skips
      · exact absurd skips (Nat.lt_irrefl 0)
      · rename_i long
        rw [if_neg some, if_neg long, skipUntilTicks]
  have kept := skip_from_keeps _ _ _ _ _ (counted ▸ skips)
  rw [← counted, configured.timescale, exact.ticks, Nat.zero_add] at kept
  have parted : (builder.manifest.segments.map Segment.durationTicks).sum =
      ((builder.manifest.segments.take builder.manifest.deltaSkipCount).map Segment.durationTicks).sum +
        builder.manifest.keptTicks builder.manifest.deltaSkipCount := by
    rw [Manifest.keptTicks, ← List.sum_append, ← List.map_append, List.take_append_drop]
  rw [configured.timescale] at scaled
  exact ⟨by omega, by omega⟩

theorem short_consistent (exact : FloatExact config) (short : ShortSegments config builder.manifest.segments) :
    builder.manifest.Consistent := by
  have target := short_effective_target configured short
  refine ⟨?_, ?_, ?_⟩
  · intro segment member
    rw [target, configured.timescale]
    exact short_rounded config segment (short segment member)
  · refine ⟨_, configured.skip, ?_⟩
    rw [target, exact.rendered]
    push_cast
    rw [mul_comm]
  · intro skips skip rendered
    obtain ⟨positive, kept⟩ := delta_skips configured exact skips
    have scaled : (0 : ℚ) < config.timescale := by exact_mod_cast positive
    have remains : (config.targetDurationSecs * 6 : ℚ) * config.timescale ≤
        builder.manifest.keptTicks builder.manifest.deltaSkipCount := by exact_mod_cast kept.le
    rw [configured.skip, Option.mem_some_iff] at rendered
    rw [← rendered, exact.rendered, target, configured.timescale, seconds, le_div_iff₀ scaled, le_div_iff₀ scaled]
    push_cast
    refine ⟨remains, le_trans ?_ remains⟩
    have nonnegative : (0 : ℚ) ≤ config.targetDurationSecs * config.timescale := by positivity
    linarith

theorem consistent_short (exact : FloatExact config) (u32 : config.targetDurationSecs < 2 ^ 32)
    (consistent : builder.manifest.Consistent) : ShortSegments config builder.manifest.segments := by
  have target : builder.manifest.effectiveTarget ≤ config.targetDurationSecs := by
    obtain ⟨skip, rendered, boundary⟩ := consistent.boundary
    rw [configured.skip, Option.mem_some_iff] at rendered
    rw [← rendered, exact.rendered] at boundary
    have whole : 6 * builder.manifest.effectiveTarget ≤ config.targetDurationSecs * 6 := by exact_mod_cast boundary
    omega
  have observed : builder.manifest.observedCeil ≤ config.targetDurationSecs := (Nat.le_max_right _ _).trans target
  intro segment member
  have ticks : segment.durationTicks ∈ builder.manifest.segments.map Segment.durationTicks := List.mem_map_of_mem member
  cases longest : (builder.manifest.segments.map Segment.durationTicks).max? with
  | none =>
      rw [List.max?_eq_none_iff.mp longest] at ticks
      exact absurd ticks List.not_mem_nil
  | some most =>
      refine ((List.max?_eq_some_iff.mp longest).2 _ ticks).trans ?_
      obtain ⟨extreme, listed, rfl⟩ := List.mem_map.mp (List.max?_mem longest)
      have rounded := (consistent.target extreme listed).trans target
      rw [Manifest.observedCeil, longest, configured.timescale] at observed
      rw [configured.timescale] at rounded
      exact ceiling_short config extreme exact u32 observed rounded

end Rendered

-- The segment a call closes stays within the configured target, unless the window
-- lets it go at once.
def FitsTarget (builder : PlaylistBuilder) : Prop :=
  builder.config.maxSegments ≠ some 0 →
    builder.pendingDurationTicks ≤ builder.config.targetDurationSecs * max builder.config.timescale 1

instance (builder : PlaylistBuilder) : Decidable (FitsTarget builder) := inferInstanceAs (Decidable (_ → _))

def ClosesShort (builder : PlaylistBuilder) : BuilderOp → Prop
  | .push chunk =>
      builder.Accepts chunk → chunk.kind.isSegmentStart = true → builder.pendingParts ≠ [] → FitsTarget builder
  | .closePendingSegment => builder.pendingParts ≠ [] → FitsTarget builder
  | .pushDateRange _ => True
  | .markDiscontinuityPending => True
  | .finalize => builder.pendingParts ≠ [] → FitsTarget builder

instance (builder : PlaylistBuilder) : (op : BuilderOp) → Decidable (ClosesShort builder op)
  | .push _ => inferInstanceAs (Decidable (_ → _ → _ → _))
  | .closePendingSegment => inferInstanceAs (Decidable (_ → _))
  | .pushDateRange _ => inferInstanceAs (Decidable True)
  | .markDiscontinuityPending => inferInstanceAs (Decidable True)
  | .finalize => inferInstanceAs (Decidable (_ → _))

theorem overflow_spares_last (builder : PlaylistBuilder) (room : builder.config.maxSegments ≠ some 0) :
    builder.appendSegment.overflowCount ≤ builder.manifest.segments.length := by
  have grown : builder.appendSegment.manifest.segments.length = builder.manifest.segments.length + 1 :=
    List.length_append
  have same : builder.appendSegment.config = builder.config := rfl
  rw [overflowCount, same, grown]
  cases window : builder.config.maxSegments with
  | none => exact Nat.zero_le _
  | some max =>
      have positive : max ≠ 0 := fun zero => room (by rw [window, zero])
      simp only
      omega

theorem overflow_takes_all (builder : PlaylistBuilder) (noRoom : builder.config.maxSegments = some 0) :
    builder.appendSegment.overflowCount = builder.manifest.segments.length + 1 := by
  have same : builder.appendSegment.config = builder.config := rfl
  rw [overflowCount, same, noRoom]
  exact List.length_append

theorem close_short_iff (config : PlaylistBuilderConfig) (builder : PlaylistBuilder) (same : builder.config = config)
    (short : ShortSegments config builder.manifest.segments) :
    ShortSegments config builder.closePendingSegment.manifest.segments ↔
      (builder.pendingParts ≠ [] → FitsTarget builder) := by
  by_cases empty : builder.pendingParts = []
  · rw [close_nothing_pending builder empty]
    exact ⟨fun _ pending => absurd empty pending, fun _ => short⟩
  · obtain ⟨ranges, _, closed⟩ := close_pending_eq builder empty
    have segments : builder.closePendingSegment.manifest.segments =
        (builder.manifest.segments ++ [builder.pendingSegment]).drop builder.appendSegment.overflowCount := by
      rw [closed]
      rfl
    rw [segments]
    by_cases noRoom : builder.config.maxSegments = some 0
    · rw [overflow_takes_all builder noRoom, List.drop_of_length_le (by simp)]
      exact ⟨fun _ _ room => absurd noRoom room, fun _ segment member => absurd member List.not_mem_nil⟩
    · rw [List.drop_append_of_le_length (overflow_spares_last builder noRoom)]
      constructor
      · intro after _ _
        have last := after builder.pendingSegment (List.mem_append_right _ List.mem_cons_self)
        rwa [same]
      · intro fits segment member
        cases List.mem_append.mp member with
        | inl old => exact short segment (List.drop_subset _ _ old)
        | inr new =>
            rw [List.mem_singleton.mp new, ← same]
            exact fits empty noRoom

theorem apply_short_iff (config : PlaylistBuilderConfig) (builder : PlaylistBuilder) (op : BuilderOp)
    (configured : Configured config builder) (short : ShortSegments config builder.manifest.segments) :
    ShortSegments config (builder.apply op).manifest.segments ↔ ClosesShort builder op := by
  cases op with
  | push chunk =>
      by_cases accepts : builder.Accepts chunk
      · have started : (builder.accept chunk).manifest.segments = (builder.startChunk chunk).manifest.segments := rfl
        rw [apply_push_accepted builder chunk accepts, started, start_chunk_eq]
        by_cases start : chunk.kind.isSegmentStart = true
        · have counted := close_short_iff config (builder.counted chunk) configured.same short
          rw [if_pos start, counted]
          exact ⟨fun fits _ _ => fits, fun fits => fits accepts start⟩
        · rw [if_neg start]
          exact ⟨fun _ _ boundary => absurd boundary start, fun _ => short⟩
      · rw [apply_push_rejected builder chunk accepts]
        exact ⟨fun _ accepted => absurd accepted accepts, fun _ => short⟩
  | closePendingSegment => exact close_short_iff config builder configured.same short
  | pushDateRange range =>
      obtain ⟨ranges, pushed⟩ := push_date_range_eq builder range
      rw [apply, pushed]
      exact ⟨fun _ => trivial, fun _ => short⟩
  | markDiscontinuityPending => exact ⟨fun _ => trivial, fun _ => short⟩
  | finalize => exact close_short_iff config builder configured.same short

theorem close_configured (config : PlaylistBuilderConfig) (builder : PlaylistBuilder)
    (configured : Configured config builder) : Configured config builder.closePendingSegment := by
  by_cases empty : builder.pendingParts = []
  · rwa [close_nothing_pending builder empty]
  · obtain ⟨ranges, _, closed⟩ := close_pending_eq builder empty
    rw [closed]
    exact ⟨configured.same, configured.timescale, configured.target, configured.skip⟩

theorem apply_configured (config : PlaylistBuilderConfig) (builder : PlaylistBuilder) (op : BuilderOp)
    (configured : Configured config builder) : Configured config (builder.apply op) := by
  have same : (builder.apply op).config = config := (apply_config builder op).trans configured.same
  cases op with
  | push chunk =>
      by_cases accepts : builder.Accepts chunk
      · have started : Configured config (builder.startChunk chunk) := by
          have counted : Configured config (builder.counted chunk) :=
            ⟨configured.same, configured.timescale, configured.target, configured.skip⟩
          rw [start_chunk_eq]
          split
          · exact close_configured config _ counted
          · exact counted
        rw [apply_push_accepted builder chunk accepts]
        exact ⟨started.same, started.timescale, started.target, started.skip⟩
      · rwa [apply_push_rejected builder chunk accepts]
  | closePendingSegment => exact close_configured config builder configured
  | pushDateRange range =>
      obtain ⟨ranges, pushed⟩ := push_date_range_eq builder range
      rw [apply, pushed]
      exact ⟨configured.same, configured.timescale, configured.target, configured.skip⟩
  | markDiscontinuityPending => exact ⟨configured.same, configured.timescale, configured.target, configured.skip⟩
  | finalize =>
      have closed := close_configured config builder configured
      exact ⟨closed.same, closed.timescale, closed.target, closed.skip⟩

theorem new_configured (config : PlaylistBuilderConfig) : Configured config (.new config) := ⟨rfl, rfl, rfl, rfl⟩

theorem rendered_consistent_iff (config : PlaylistBuilderConfig) (u32 : config.targetDurationSecs < 2 ^ 32)
    (exact : FloatExact config) (ops : List BuilderOp) :
    (∀ seen, seen <+: ops → (Machine.run apply (.new config) seen).manifest.Consistent) ↔
      Machine.AllSteps ClosesShort apply (.new config) ops := by
  have start : ShortSegments config (PlaylistBuilder.new config).manifest.segments :=
    fun segment member => absurd member List.not_mem_nil
  rw [← Machine.invariant_iff_guarded_under (apply_configured config)
    (apply_short_iff config) (.new config) ops (new_configured config) start]
  refine forall₂_congr fun seen _ => ?_
  have configured : Configured config (Machine.run apply (.new config) seen) :=
    Machine.invariant_of_run (apply_configured config) (.new config) seen (new_configured config)
  exact ⟨consistent_short configured exact u32, short_consistent configured exact⟩

def shortSegment : List BuilderOp := [.push ⟨"0.mp4", [], 0, 180000, .segment⟩, .closePendingSegment]

theorem short_segment_consistent : (Machine.run apply (.new .default) shortSegment).manifest.Consistent :=
  (rendered_consistent_iff .default (by decide) (small_float_exact _ (by decide) (by decide) (by decide))
    shortSegment).mpr (by decide) shortSegment (List.prefix_refl _)

-- One segment of three seconds under a configured target of two.
def longSegment : List BuilderOp := [.push ⟨"0.mp4", [], 0, 270000, .segment⟩, .closePendingSegment]

theorem long_segment_inconsistent :
    ¬ ∀ (config : PlaylistBuilderConfig) (ops : List BuilderOp),
      (Machine.run apply (.new config) ops).manifest.Consistent := by
  intro consistent
  obtain ⟨skip, rendered, boundary⟩ := (consistent .default longSegment).boundary
  have configured : (Machine.run apply (.new .default) longSegment).manifest.serverControl.canSkipUntil =
      some (fromSecs 12) := by decide
  rw [configured, Option.mem_some_iff] at rendered
  rw [← rendered] at boundary
  revert boundary
  decide +kernel

end Lvqr.Hls
