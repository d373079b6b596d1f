import Lvqr.Hls.Manifest
import Lvqr.Lib.Machine

set_option autoImplicit false

-- The playlist state machine. The counters `next_sequence` and `part_index` are
-- Nat, so the model runs until a u64 sequence or a u32 part index would wrap.
namespace Lvqr.Hls

structure PlaylistBuilderConfig where
  timescale : Nat
  startingSequence : Nat
  mapUri : String
  uriPrefix : String
  targetDurationSecs : Nat
  partTargetSecs : ℚ
  maxSegments : Option Nat
  programDateTimeBase : Option Nat
deriving DecidableEq, Repr

def PlaylistBuilderConfig.default : PlaylistBuilderConfig where
  timescale := 90000
  startingSequence := 0
  mapUri := "init.mp4"
  uriPrefix := ""
  targetDurationSecs := 2
  partTargetSecs := Decimal.f32 (1 / 5)
  maxSegments := none
  programDateTimeBase := none

structure PlaylistBuilder where
  config : PlaylistBuilderConfig
  manifest : Manifest
  pendingParts : List Part
  pendingDurationTicks : Nat
  nextSequence : Nat
  lastDts : Option Nat
  partIndex : Nat
  evictedUris : List String
  cumulativeDurationMillis : Nat
  pendingDiscontinuity : Bool
deriving DecidableEq, Repr

def partUri (uriPrefix : String) (sequence index : Nat) : String :=
  uriPrefix ++ "part-" ++ toString sequence ++ "-" ++ toString index ++ ".m4s"

def segmentUri (uriPrefix : String) (sequence : Nat) : String :=
  uriPrefix ++ "seg-" ++ toString sequence ++ ".m4s"

def Segment.uris (segment : Segment) : List String :=
  segment.parts.map Part.uri ++ [segment.uri]

namespace PlaylistBuilder

def new (config : PlaylistBuilderConfig) : PlaylistBuilder where
  config := config
  manifest :=
    { version := 9
      timescale := config.timescale
      targetDurationSecs := config.targetDurationSecs
      partTargetSecs := config.partTargetSecs
      serverControl :=
        { canBlockReload := true
          partHoldBack := fromSecsF32 (Decimal.f32 (config.partTargetSecs * 3))
          holdBack := fromSecs (config.targetDurationSecs * 3)
          canSkipUntil := some (fromSecs (config.targetDurationSecs * 6)) }
      mapUri := config.mapUri
      segments := []
      preliminaryParts := []
      preloadHintUri := none
      ended := false
      dateRanges := [] }
  pendingParts := []
  pendingDurationTicks := 0
  nextSequence := config.startingSequence
  lastDts := none
  partIndex := 0
  evictedUris := []
  cumulativeDurationMillis := 0
  pendingDiscontinuity := false

def markDiscontinuityPending (builder : PlaylistBuilder) : PlaylistBuilder :=
  { builder with pendingDiscontinuity := true }

def nextPartUri (builder : PlaylistBuilder) : String :=
  partUri builder.config.uriPrefix builder.nextSequence builder.partIndex

def pendingSegment (builder : PlaylistBuilder) : Segment where
  sequence := builder.nextSequence
  uri := segmentUri builder.config.uriPrefix builder.nextSequence
  durationTicks := builder.pendingDurationTicks
  parts := builder.pendingParts
  programDateTimeMillis := builder.config.programDateTimeBase.map (· + builder.cumulativeDurationMillis)
  discontinuity := builder.pendingDiscontinuity

def durationMillis (builder : PlaylistBuilder) : Nat :=
  if 0 < builder.config.timescale then builder.pendingDurationTicks * 1000 / builder.config.timescale else 0

def appendSegment (builder : PlaylistBuilder) : PlaylistBuilder :=
  { builder with
    manifest :=
      { builder.manifest with
        segments := builder.manifest.segments ++ [builder.pendingSegment]
        preliminaryParts := []
        preloadHintUri := some (partUri builder.config.uriPrefix (builder.nextSequence + 1) 0) }
    pendingParts := []
    pendingDurationTicks := 0
    nextSequence := builder.nextSequence + 1
    partIndex := 0
    cumulativeDurationMillis := builder.cumulativeDurationMillis + builder.durationMillis
    pendingDiscontinuity := false }

def evictOverflow (builder : PlaylistBuilder) : PlaylistBuilder :=
  match builder.config.maxSegments with
  | none => builder
  | some max =>
      if max < builder.manifest.segments.length then
        let overflow := builder.manifest.segments.length - max
        { builder with
          manifest := { builder.manifest with segments := builder.manifest.segments.drop overflow }
          evictedUris := builder.evictedUris ++ (builder.manifest.segments.take overflow).flatMap Segment.uris }
      else builder

def pruneDateRanges (builder : PlaylistBuilder) : PlaylistBuilder :=
  match builder.manifest.segments.head?.bind Segment.programDateTimeMillis with
  | none => builder
  | some firstPdt =>
      { builder with
        manifest :=
          { builder.manifest with
            dateRanges := builder.manifest.dateRanges.filter (firstPdt ≤ ·.startDateMillis) } }

def closePendingSegment (builder : PlaylistBuilder) : PlaylistBuilder :=
  if builder.pendingParts = [] then builder
  else builder.appendSegment.evictOverflow.pruneDateRanges

-- The URI is formed before a boundary chunk closes the open segment, so the
-- first part of a segment carries the previous segment's sequence number.
def nextPart (builder : PlaylistBuilder) (chunk : Cmaf.CmafChunk) : Part where
  uri := builder.nextPartUri
  durationTicks := chunk.duration
  independent := chunk.kind.isIndependent

def counted (builder : PlaylistBuilder) (chunk : Cmaf.CmafChunk) : PlaylistBuilder :=
  { builder with lastDts := some chunk.dts, partIndex := builder.partIndex + 1 }

def startChunk (builder : PlaylistBuilder) (chunk : Cmaf.CmafChunk) : PlaylistBuilder :=
  let counted := builder.counted chunk
  if chunk.kind.isSegmentStart = true ∧ counted.pendingParts ≠ [] then counted.closePendingSegment else counted

def appendPart (builder : PlaylistBuilder) (part : Part) : PlaylistBuilder :=
  let parts := builder.pendingParts ++ [part]
  { builder with
    manifest := { builder.manifest with preliminaryParts := parts, preloadHintUri := some builder.nextPartUri }
    pendingParts := parts
    pendingDurationTicks := builder.pendingDurationTicks + part.durationTicks }

def accept (builder : PlaylistBuilder) (chunk : Cmaf.CmafChunk) : PlaylistBuilder :=
  (builder.startChunk chunk).appendPart (builder.nextPart chunk)

def push (builder : PlaylistBuilder) (chunk : Cmaf.CmafChunk) : Except HlsError Unit × PlaylistBuilder :=
  if chunk.duration = 0 then (.error .zeroDuration, builder)
  else match builder.lastDts with
    | some last =>
        if chunk.dts < last then (.error (.nonMonotonic last chunk.dts), builder)
        else (.ok (), builder.accept chunk)
    | none => (.ok (), builder.accept chunk)

def sameMarker (range existing : DateRange) : Bool :=
  existing.id == range.id && existing.kind == range.kind

def pushDateRange (builder : PlaylistBuilder) (range : DateRange) : PlaylistBuilder :=
  if builder.manifest.dateRanges.any (sameMarker range) then builder
  else { builder with manifest := { builder.manifest with dateRanges := builder.manifest.dateRanges ++ [range] } }

def drainEvictedUris (builder : PlaylistBuilder) : List String × PlaylistBuilder :=
  (builder.evictedUris, { builder with evictedUris := [] })

def finalize (builder : PlaylistBuilder) : PlaylistBuilder :=
  let closed := builder.closePendingSegment
  { closed with manifest := { closed.manifest with preliminaryParts := [], preloadHintUri := none, ended := true } }

end PlaylistBuilder

inductive BuilderOp where
  | push (chunk : Cmaf.CmafChunk)
  | closePendingSegment
  | pushDateRange (range : DateRange)
  | markDiscontinuityPending
  | finalize
deriving DecidableEq, Repr

namespace PlaylistBuilder

def apply (builder : PlaylistBuilder) : BuilderOp → PlaylistBuilder
  | .push chunk => (builder.push chunk).2
  | .closePendingSegment => builder.closePendingSegment
  | .pushDateRange range => builder.pushDateRange range
  | .markDiscontinuityPending => builder.markDiscontinuityPending
  | .finalize => builder.finalize

def Accepts (builder : PlaylistBuilder) (chunk : Cmaf.CmafChunk) : Prop :=
  0 < chunk.duration ∧ ∀ last ∈ builder.lastDts, last ≤ chunk.dts

instance (builder : PlaylistBuilder) (chunk : Cmaf.CmafChunk) : Decidable (builder.Accepts chunk) := by
  unfold Accepts
  infer_instance

theorem push_accepted (builder : PlaylistBuilder) (chunk : Cmaf.CmafChunk) (accepts : builder.Accepts chunk) :
    builder.push chunk = (.ok (), builder.accept chunk) := by
  obtain ⟨positive, monotone⟩ := accepts
  have nonzero : chunk.duration ≠ 0 := by omega
  cases last : builder.lastDts with
  | none => simp [push, nonzero, last]
  | some dts =>
      have notBelow : ¬ chunk.dts < dts := Nat.not_lt.mpr (monotone dts (by simp [last]))
      simp [push, nonzero, last, notBelow]

theorem push_rejected (builder : PlaylistBuilder) (chunk : Cmaf.CmafChunk) (rejects : ¬ builder.Accepts chunk) :
    ∃ error, builder.push chunk = (.error error, builder) := by
  by_cases zero : chunk.duration = 0
  · exact ⟨.zeroDuration, by simp [push, zero]⟩
  · cases last : builder.lastDts with
    | none => exact absurd ⟨Nat.pos_of_ne_zero zero, by simp [last]⟩ rejects
    | some dts =>
        have below : chunk.dts < dts := by
          by_contra notBelow
          exact rejects ⟨Nat.pos_of_ne_zero zero, by simpa [last] using notBelow⟩
        exact ⟨.nonMonotonic dts chunk.dts, by simp [push, zero, last, below]⟩

theorem push_ok_iff (builder : PlaylistBuilder) (chunk : Cmaf.CmafChunk) :
    (builder.push chunk).1 = .ok () ↔ builder.Accepts chunk := by
  constructor
  · intro pushed
    by_contra rejects
    obtain ⟨error, failed⟩ := push_rejected builder chunk rejects
    simp [failed] at pushed
  · intro accepts
    rw [push_accepted builder chunk accepts]

theorem push_error_iff (builder : PlaylistBuilder) (chunk : Cmaf.CmafChunk) :
    (∃ error, (builder.push chunk).1 = .error error) ↔ ¬ builder.Accepts chunk := by
  constructor
  · intro failure accepts
    obtain ⟨error, failed⟩ := failure
    rw [push_accepted builder chunk accepts] at failed
    cases failed
  · intro rejects
    obtain ⟨error, failed⟩ := push_rejected builder chunk rejects
    exact ⟨error, by rw [failed]⟩

theorem apply_push_accepted (builder : PlaylistBuilder) (chunk : Cmaf.CmafChunk) (accepts : builder.Accepts chunk) :
    builder.apply (.push chunk) = builder.accept chunk := by
  simp [apply, push_accepted builder chunk accepts]

theorem apply_push_rejected (builder : PlaylistBuilder) (chunk : Cmaf.CmafChunk) (rejects : ¬ builder.Accepts chunk) :
    builder.apply (.push chunk) = builder := by
  obtain ⟨error, failed⟩ := push_rejected builder chunk rejects
  simp [apply, failed]

@[simp] theorem close_nothing_pending (builder : PlaylistBuilder) (empty : builder.pendingParts = []) :
    builder.closePendingSegment = builder := by
  simp [closePendingSegment, empty]

-- Closing nothing changes nothing, so the second half of the guard is moot.
theorem start_chunk_eq (builder : PlaylistBuilder) (chunk : Cmaf.CmafChunk) :
    builder.startChunk chunk =
      if chunk.kind.isSegmentStart then (builder.counted chunk).closePendingSegment else builder.counted chunk := by
  simp only [startChunk]
  by_cases empty : (builder.counted chunk).pendingParts = []
  · simp [empty]
  · simp [empty]

def overflowCount (builder : PlaylistBuilder) : Nat :=
  match builder.config.maxSegments with
  | none => 0
  | some max => builder.manifest.segments.length - max

theorem evict_overflow_eq (builder : PlaylistBuilder) :
    builder.evictOverflow =
      { builder with
        manifest := { builder.manifest with segments := builder.manifest.segments.drop builder.overflowCount }
        evictedUris := builder.evictedUris ++
          (builder.manifest.segments.take builder.overflowCount).flatMap Segment.uris } := by
  unfold evictOverflow overflowCount
  cases builder.config.maxSegments with
  | none => simp
  | some max =>
      by_cases overflows : max < builder.manifest.segments.length
      · simp [overflows]
      · have fits : builder.manifest.segments.length - max = 0 := by omega
        simp [overflows, fits]

theorem prune_date_ranges_eq (builder : PlaylistBuilder) :
    ∃ ranges, List.Sublist ranges builder.manifest.dateRanges ∧
      builder.pruneDateRanges = { builder with manifest := { builder.manifest with dateRanges := ranges } } := by
  unfold pruneDateRanges
  cases builder.manifest.segments.head?.bind Segment.programDateTimeMillis with
  | none => exact ⟨builder.manifest.dateRanges, List.Sublist.refl _, rfl⟩
  | some firstPdt => exact ⟨_, List.filter_sublist, rfl⟩

-- Everything `close_pending_segment` does to a builder with pending parts,
-- but for which date ranges survive.
theorem close_pending_eq (builder : PlaylistBuilder) (pending : builder.pendingParts ≠ []) :
    ∃ ranges, List.Sublist ranges builder.manifest.dateRanges ∧
      builder.closePendingSegment =
        { builder.appendSegment with
          manifest :=
            { builder.appendSegment.manifest with
              segments := builder.appendSegment.manifest.segments.drop builder.appendSegment.overflowCount
              dateRanges := ranges }
          evictedUris := builder.evictedUris ++
            (builder.appendSegment.manifest.segments.take builder.appendSegment.overflowCount).flatMap
              Segment.uris } := by
  obtain ⟨ranges, kept, pruned⟩ := prune_date_ranges_eq builder.appendSegment.evictOverflow
  refine ⟨ranges, ?_, ?_⟩
  · simpa [evict_overflow_eq, appendSegment] using kept
  · rw [closePendingSegment, if_neg pending, pruned, evict_overflow_eq]
    rfl

@[simp] theorem close_pending_parts (builder : PlaylistBuilder) : builder.closePendingSegment.pendingParts = [] := by
  by_cases empty : builder.pendingParts = []
  · simp [empty]
  · obtain ⟨ranges, _, closed⟩ := close_pending_eq builder empty
    rw [closed]
    rfl

-- What `close_pending_segment` leaves alone, whether parts are pending or not.
structure CloseKeeps (before after : PlaylistBuilder) : Prop where
  config : after.config = before.config
  timescale : after.manifest.timescale = before.manifest.timescale
  ended : after.manifest.ended = before.manifest.ended
  lastDts : after.lastDts = before.lastDts

theorem close_keeps (builder : PlaylistBuilder) : CloseKeeps builder builder.closePendingSegment := by
  by_cases empty : builder.pendingParts = []
  · rw [close_nothing_pending builder empty]
    exact ⟨rfl, rfl, rfl, rfl⟩
  · obtain ⟨ranges, _, closed⟩ := close_pending_eq builder empty
    rw [closed]
    exact ⟨rfl, rfl, rfl, rfl⟩

@[simp] theorem close_config (builder : PlaylistBuilder) : builder.closePendingSegment.config = builder.config :=
  (close_keeps builder).config

@[simp] theorem close_timescale (builder : PlaylistBuilder) :
    builder.closePendingSegment.manifest.timescale = builder.manifest.timescale := (close_keeps builder).timescale

@[simp] theorem close_ended (builder : PlaylistBuilder) :
    builder.closePendingSegment.manifest.ended = builder.manifest.ended := (close_keeps builder).ended

@[simp] theorem close_last_dts (builder : PlaylistBuilder) : builder.closePendingSegment.lastDts = builder.lastDts :=
  (close_keeps builder).lastDts

@[simp] theorem start_chunk_last_dts (builder : PlaylistBuilder) (chunk : Cmaf.CmafChunk) :
    (builder.startChunk chunk).lastDts = some chunk.dts := by
  rw [start_chunk_eq]
  split <;> simp [counted]

@[simp] theorem accept_last_dts (builder : PlaylistBuilder) (chunk : Cmaf.CmafChunk) :
    (builder.accept chunk).lastDts = some chunk.dts := by
  simp [accept, appendPart]

@[simp] theorem finalize_last_dts (builder : PlaylistBuilder) : builder.finalize.lastDts = builder.lastDts := by
  simp [finalize]

@[simp] theorem finalize_pending_parts (builder : PlaylistBuilder) : builder.finalize.pendingParts = [] := by
  simp [finalize]

@[simp] theorem push_date_range_last_dts (builder : PlaylistBuilder) (range : DateRange) :
    (builder.pushDateRange range).lastDts = builder.lastDts := by
  unfold pushDateRange
  split <;> rfl

end PlaylistBuilder

end Lvqr.Hls
