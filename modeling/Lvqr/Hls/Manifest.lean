import Lvqr.Lib.Decimal
import Lvqr.Cmaf.Coalescer

set_option autoImplicit false

namespace Lvqr.Hls

inductive HlsError where
  | nonMonotonic (lastDts chunkDts : Nat)
  | zeroDuration
deriving DecidableEq, Repr

structure Part where
  uri : String
  durationTicks : Nat
  independent : Bool
deriving DecidableEq, Repr

structure Segment where
  sequence : Nat
  uri : String
  durationTicks : Nat
  parts : List Part
  programDateTimeMillis : Option Nat
  discontinuity : Bool
deriving DecidableEq, Repr

inductive DateRangeKind where
  | spliceOut
  | spliceIn
  | cmd
deriving DecidableEq, Repr

def DateRangeKind.attributeName : DateRangeKind → String
  | .spliceOut => "SCTE35-OUT"
  | .spliceIn => "SCTE35-IN"
  | .cmd => "SCTE35-CMD"

structure DateRange where
  id : String
  class_ : Option String
  startDateMillis : Nat
  durationSecs : Option ℚ
  kind : DateRangeKind
  scte35Hex : String
deriving DecidableEq, Repr

-- A std::time::Duration is its count of nanoseconds.
abbrev Duration := Nat

def fromSecs (secs : Nat) : Duration := secs * 1000000000

def fromSecsF32 (secs : ℚ) : Duration := Decimal.roundHalfEven (secs * 1000000000)

def asSecsF32 (duration : Duration) : ℚ :=
  Decimal.f32 (Decimal.f32 (duration / 1000000000 : Nat) +
    Decimal.f32 (Decimal.f32 (duration % 1000000000 : Nat) / 1000000000))

structure ServerControl where
  canBlockReload : Bool
  partHoldBack : Duration
  holdBack : Duration
  canSkipUntil : Option Duration
deriving DecidableEq, Repr

structure Manifest where
  version : Nat
  timescale : Nat
  targetDurationSecs : Nat
  partTargetSecs : ℚ
  serverControl : ServerControl
  mapUri : String
  segments : List Segment
  preliminaryParts : List Part
  preloadHintUri : Option String
  ended : Bool
  dateRanges : List DateRange
deriving DecidableEq, Repr

def escapeAttr (text : String) : String :=
  String.ofList (text.toList.flatMap fun c =>
    if c = '"' then ['\\', '"']
    else if c = '\\' then ['\\', '\\']
    else if c = '\n' ∨ c = '\r' then []
    else [c])

def ticksToSecs (ticks timescale : Nat) : ℚ :=
  if timescale = 0 then 0 else Decimal.f64 (Decimal.f64 ticks / Decimal.f64 timescale)

def formatProgramDateTime (epochMillis : Nat) : String :=
  let totalSecs : Int := (epochMillis / 1000 : Nat)
  let millis := epochMillis % 1000
  let daySecs := (totalSecs.emod 86400).toNat
  let h := daySecs / 3600
  let min := daySecs % 3600 / 60
  let s := daySecs % 60
  let z := totalSecs.ediv 86400 + 719468
  let era := (if 0 ≤ z then z else z - 146096).tdiv 146097
  let doe := (z - era * 146097).toNat
  let yoe := (doe - doe / 1460 + doe / 36524 - doe / 146096) / 365
  let y := (yoe : Int) + era * 400
  let doy := doe - (365 * yoe + yoe / 4 - yoe / 100)
  let mp := (5 * doy + 2) / 153
  let d := doy - (153 * mp + 2) / 5 + 1
  let m := if mp < 10 then mp + 3 else mp - 9
  let y := if m ≤ 2 then y + 1 else y
  Decimal.padLeft 4 y.toNat ++ "-" ++ Decimal.padLeft 2 m ++ "-" ++ Decimal.padLeft 2 d ++ "T" ++
    Decimal.padLeft 2 h ++ ":" ++ Decimal.padLeft 2 min ++ ":" ++ Decimal.padLeft 2 s ++ "." ++
    Decimal.padLeft 3 millis ++ "Z"

def ServerControl.render (control : ServerControl) : String :=
  "#EXT-X-SERVER-CONTROL:CAN-BLOCK-RELOAD=" ++ (if control.canBlockReload then "YES" else "NO") ++
    ",PART-HOLD-BACK=" ++ Decimal.fixed 3 (asSecsF32 control.partHoldBack) ++
    ",HOLD-BACK=" ++ Decimal.fixed 3 (asSecsF32 control.holdBack) ++
    (match control.canSkipUntil with
      | some skip => ",CAN-SKIP-UNTIL=" ++ Decimal.fixed 3 (asSecsF32 skip)
      | none => "") ++ "\n"

def DateRange.render (range : DateRange) : String :=
  "#EXT-X-DATERANGE:ID=\"" ++ escapeAttr range.id ++ "\"" ++
    (match range.class_ with
      | some class_ => ",CLASS=\"" ++ escapeAttr class_ ++ "\""
      | none => "") ++
    ",START-DATE=\"" ++ formatProgramDateTime range.startDateMillis ++ "\"" ++
    (match range.durationSecs with
      | some secs => ",DURATION=" ++ Decimal.fixed 3 secs
      | none => "") ++
    "," ++ range.kind.attributeName ++ "=" ++ range.scte35Hex ++ "\n"

def Part.render (timescale : Nat) (part : Part) : String :=
  "#EXT-X-PART:DURATION=" ++ Decimal.fixed 6 (ticksToSecs part.durationTicks timescale) ++
    ",URI=\"" ++ part.uri ++ "\"" ++ (if part.independent then ",INDEPENDENT=YES" else "") ++ "\n"

def Segment.render (timescale : Nat) (segment : Segment) : String :=
  (if segment.discontinuity then "#EXT-X-DISCONTINUITY\n" else "") ++
    (match segment.programDateTimeMillis with
      | some millis => "#EXT-X-PROGRAM-DATE-TIME:" ++ formatProgramDateTime millis ++ "\n"
      | none => "") ++
    String.join (segment.parts.map (Part.render timescale)) ++
    "#EXTINF:" ++ Decimal.fixed 6 (ticksToSecs segment.durationTicks timescale) ++ ",\n" ++ segment.uri ++ "\n"

namespace Manifest

-- The cast of the ceiling to u32 is written out; `div_ceil` is exact.
def observedCeil (manifest : Manifest) : Nat :=
  match (manifest.segments.map Segment.durationTicks).max? with
  | none => 0
  | some ticks =>
      let ts := max manifest.timescale 1
      ((ticks + ts - 1) / ts) % 2 ^ 32

def effectiveTarget (manifest : Manifest) : Nat :=
  max manifest.targetDurationSecs manifest.observedCeil

def renderHead (manifest : Manifest) (skipCount : Nat) : String :=
  "#EXTM3U\n" ++ "#EXT-X-VERSION:" ++ toString manifest.version ++ "\n" ++
    "#EXT-X-INDEPENDENT-SEGMENTS\n" ++
    "#EXT-X-TARGETDURATION:" ++ toString manifest.effectiveTarget ++ "\n" ++
    manifest.serverControl.render ++
    "#EXT-X-PART-INF:PART-TARGET=" ++ Decimal.fixed 3 manifest.partTargetSecs ++ "\n" ++
    "#EXT-X-MAP:URI=\"" ++ manifest.mapUri ++ "\"\n" ++
    (match manifest.segments.head? with
      | some first => "#EXT-X-MEDIA-SEQUENCE:" ++ toString first.sequence ++ "\n"
      | none => "") ++
    (if 0 < skipCount then "#EXT-X-SKIP:SKIPPED-SEGMENTS=" ++ toString skipCount ++ "\n" else "")

def renderDateRanges (manifest : Manifest) : String :=
  String.join (manifest.dateRanges.map DateRange.render)

def renderTail (manifest : Manifest) : String :=
  if manifest.ended then "#EXT-X-ENDLIST\n"
  else match manifest.preloadHintUri with
    | some uri => "#EXT-X-PRELOAD-HINT:TYPE=PART,URI=\"" ++ uri ++ "\"\n"
    | none => ""

def renderWithSkip (manifest : Manifest) (skipCount : Nat) : String :=
  let skipCount := min skipCount manifest.segments.length
  manifest.renderHead skipCount ++ manifest.renderDateRanges ++
    String.join ((manifest.segments.drop skipCount).map (Segment.render manifest.timescale)) ++
    String.join (manifest.preliminaryParts.map (Part.render manifest.timescale)) ++
    manifest.renderTail

def render (manifest : Manifest) : String := manifest.renderWithSkip 0

end Manifest

theorem line_nonempty (text : String) : 0 < (text ++ "\n").length := by
  rw [String.length_append, show "\n".length = 1 from rfl]
  omega

theorem date_range_render_nonempty (range : DateRange) : 0 < range.render.length := by
  unfold DateRange.render
  exact line_nonempty _

-- A DATERANGE line cannot hide: more entries give a longer text.
theorem render_with_more_date_ranges (manifest : Manifest) (added : List DateRange) (someAdded : added ≠ []) :
    manifest.render.length < ({ manifest with dateRanges := manifest.dateRanges ++ added } : Manifest).render.length := by
  obtain ⟨first, rest, rfl⟩ := List.exists_cons_of_ne_nil someAdded
  have grown := date_range_render_nonempty first
  have ranges : ({ manifest with dateRanges := manifest.dateRanges ++ first :: rest } : Manifest).renderDateRanges.length =
      manifest.renderDateRanges.length + (first.render.length + (rest.map (String.length ∘ DateRange.render)).sum) := by
    simp [Manifest.renderDateRanges, Function.comp_def]
  have head (skip : Nat) : ({ manifest with dateRanges := manifest.dateRanges ++ first :: rest } : Manifest).renderHead skip =
      manifest.renderHead skip := rfl
  have tail : ({ manifest with dateRanges := manifest.dateRanges ++ first :: rest } : Manifest).renderTail =
      manifest.renderTail := rfl
  rw [Manifest.render, Manifest.render, Manifest.renderWithSkip, Manifest.renderWithSkip, head, tail]
  simp only [String.length_append, ranges]
  omega

end Lvqr.Hls
