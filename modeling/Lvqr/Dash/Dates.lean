import Lvqr.Hls.Manifest
import Lvqr.Hls.Master
import Lvqr.Lib.Calendar

set_option autoImplicit false

-- The three date formatters: of the media playlist, of the subtitle playlist and of
-- the MPD. Each has era arithmetic of its own.
namespace Lvqr.Dash

def formatIso8601Utc (epochMillis : Nat) : String :=
  let totalSecs : Int := (epochMillis / 1000 : Nat)
  let millis := epochMillis % 1000
  let daySecs := (totalSecs.emod 86400).toNat
  let h := daySecs / 3600
  let min := daySecs % 3600 / 60
  let s := daySecs % 60
  let z := totalSecs.ediv 86400 + 719468
  let era := (if 0 ≤ z then z else z - 146096).tdiv 146097
  let doe := (z - era * 146097).toNat
  let yoe := (doe - doe / 1460 + doe / 36524 - doe / 146096) / 365
  let y := (yoe : Int) + era * 400
  let doy := doe - (365 * yoe + yoe / 4 - yoe / 100)
  let mp := (5 * doy + 2) / 153
  let d := doy - (153 * mp + 2) / 5 + 1
  let m := if mp < 10 then mp + 3 else mp - 9
  let y := if m ≤ 2 then y + 1 else y
  Decimal.padLeft 4 y.toNat ++ "-" ++ Decimal.padLeft 2 m ++ "-" ++ Decimal.padLeft 2 d ++ "T" ++
    Decimal.padLeft 2 h ++ ":" ++ Decimal.padLeft 2 min ++ ":" ++ Decimal.padLeft 2 s ++ "." ++
    Decimal.padLeft 3 millis ++ "Z"

def dateTimeText (date : Calendar.Date) (millisOfDay : Nat) : String :=
  Decimal.padLeft 4 date.year ++ "-" ++ Decimal.padLeft 2 date.month ++ "-" ++ Decimal.padLeft 2 date.day ++ "T" ++
    Decimal.padLeft 2 (millisOfDay / 3600000) ++ ":" ++ Decimal.padLeft 2 (millisOfDay / 60000 % 60) ++ ":" ++
    Decimal.padLeft 2 (millisOfDay / 1000 % 60) ++ "." ++ Decimal.padLeft 3 (millisOfDay % 1000) ++ "Z"

section Formatters

variable (epochMillis : Nat)

-- The instant's date and the time of its day, as the arithmetic of a formatter has them.
structure Reads (year : Int) (month day h min s millis : Nat) : Prop where
  date : (year, month, day) = (((Calendar.civilDate (epochMillis / 86400000)).year : Int),
    (Calendar.civilDate (epochMillis / 86400000)).month, (Calendar.civilDate (epochMillis / 86400000)).day)
  h : h = epochMillis % 86400000 / 3600000
  min : min = epochMillis % 86400000 / 60000 % 60
  s : s = epochMillis % 86400000 / 1000 % 60
  millis : millis = epochMillis % 86400000 % 1000

theorem text_of_reads {year : Int} {month day h min s millis : Nat}
    (reads : Reads epochMillis year month day h min s millis) :
    Decimal.padLeft 4 year.toNat ++ "-" ++ Decimal.padLeft 2 month ++ "-" ++ Decimal.padLeft 2 day ++ "T" ++
      Decimal.padLeft 2 h ++ ":" ++ Decimal.padLeft 2 min ++ ":" ++ Decimal.padLeft 2 s ++ "." ++
      Decimal.padLeft 3 millis ++ "Z" =
      dateTimeText (Calendar.civilDate (epochMillis / 86400000)) (epochMillis % 86400000) := by
  obtain ⟨date, rfl, rfl, rfl, rfl⟩ := reads
  rw [Prod.mk.injEq, Prod.mk.injEq] at date
  obtain ⟨rfl, rfl, rfl⟩ := date
  rfl

theorem reads_of_era :
    let totalSecs : Int := (epochMillis / 1000 : Nat)
    let daySecs := (totalSecs.emod 86400).toNat
    let z := totalSecs.ediv 86400 + 719468
    let era := (if 0 ≤ z then z else z - 146096).tdiv 146097
    let doe := (z - era * 146097).toNat
    let yoe := (doe - doe / 1460 + doe / 36524 - doe / 146096) / 365
    let doy := doe - (365 * yoe + yoe / 4 - yoe / 100)
    let mp := (5 * doy + 2) / 153
    let m := if mp < 10 then mp + 3 else mp - 9
    Reads epochMillis (if m ≤ 2 then (yoe : Int) + era * 400 + 1 else (yoe : Int) + era * 400) m
      (doy - (153 * mp + 2) / 5 + 1) (daySecs / 3600) (daySecs % 3600 / 60) (daySecs % 60) (epochMillis % 1000) := by
  intro totalSecs daySecs z era doe yoe doy mp m
  have days : epochMillis / 1000 / 86400 = epochMillis / 86400000 := Nat.div_div_eq_div_mul _ _ _
  have shifted : z = ((epochMillis / 86400000 + 719468 : Nat) : Int) := by
    change ((epochMillis / 1000 : Nat) : Int) / 86400 + 719468 = _
    omega
  have eras : era = (((epochMillis / 86400000 + 719468) / 146097 : Nat) : Int) := by
    simp only [era, shifted]
    rw [if_pos (Int.natCast_nonneg _), Int.tdiv_eq_ediv_of_nonneg (Int.natCast_nonneg _)]
    omega
  have day : doe = (epochMillis / 86400000 + 719468) % 146097 := by
    simp only [doe, eras, shifted]
    omega
  have civil := Calendar.civil_date_eq (epochMillis / 86400000)
  simp only [Calendar.civilFromDays, Calendar.dayOfYear, Calendar.yearOfEra, Calendar.marchMonth, ← day] at civil
  rw [Prod.mk.injEq, Prod.mk.injEq] at civil
  obtain ⟨year, month, dayOfMonth⟩ := civil
  have seconds : daySecs = epochMillis % 86400000 / 1000 := by
    have cast : daySecs = epochMillis / 1000 % 86400 := by
      change (((epochMillis / 1000 : Nat) : Int) % 86400).toNat = _
      omega
    omega
  constructor
  · rw [← year, ← month, ← dayOfMonth, eras]
    split
    · rfl
    · rfl
  · omega
  · omega
  · omega
  · omega

end Formatters

theorem program_date_time_eq (epochMillis : Nat) :
    Hls.formatProgramDateTime epochMillis =
      dateTimeText (Calendar.civilDate (epochMillis / 86400000)) (epochMillis % 86400000) :=
  text_of_reads epochMillis (reads_of_era epochMillis)

theorem mpd_date_time_eq (epochMillis : Nat) :
    formatIso8601Utc epochMillis =
      dateTimeText (Calendar.civilDate (epochMillis / 86400000)) (epochMillis % 86400000) :=
  text_of_reads epochMillis (reads_of_era epochMillis)

theorem subtitle_days_eq (days : Nat) :
    Hls.daysSinceEpochToYmd days = (((Calendar.civilDate days).year : Int), (Calendar.civilDate days).month,
      (Calendar.civilDate days).day) := by
  unfold Hls.daysSinceEpochToYmd
  extract_lets z era doe yoe y doy mp d m
  have eras : era = (((days + 719468) / 146097 : Nat) : Int) := by
    change ((days : Int) + 719468) / 146097 = _
    omega
  have day : doe = (days + 719468) % 146097 := by
    change (((days : Int) + 719468) % 146097).toNat = _
    omega
  have civil := Calendar.civil_date_eq days
  simp only [Calendar.civilFromDays, Calendar.dayOfYear, Calendar.yearOfEra, Calendar.marchMonth, ← day] at civil
  rw [Prod.mk.injEq, Prod.mk.injEq] at civil
  obtain ⟨year, month, dayOfMonth⟩ := civil
  rw [← year, ← month, ← dayOfMonth]
  simp only [y, eras]
  split
  · rfl
  · rfl

theorem subtitle_date_time_eq (epochMillis : Nat) :
    Hls.formatIso8601Utc epochMillis =
      dateTimeText (Calendar.civilDate (epochMillis / 86400000)) (epochMillis % 86400000) := by
  have days : epochMillis / 1000 / 86400 = epochMillis / 86400000 := Nat.div_div_eq_div_mul _ _ _
  have civil := subtitle_days_eq (epochMillis / 1000 / 86400)
  rw [days] at civil
  have reads : Reads epochMillis (Calendar.civilDate (epochMillis / 86400000)).year
      (Calendar.civilDate (epochMillis / 86400000)).month (Calendar.civilDate (epochMillis / 86400000)).day
      (epochMillis / 1000 % 86400 / 3600) (epochMillis / 1000 % 86400 % 3600 / 60) (epochMillis / 1000 % 86400 % 60)
      (epochMillis % 1000) := by
    constructor
    · rfl
    · omega
    · omega
    · omega
    · omega
  rw [← text_of_reads epochMillis reads]
  unfold Hls.formatIso8601Utc
  dsimp only
  rw [days, civil]

def dateAt (epochMillis : Nat) : Calendar.Date := Calendar.civilDate (epochMillis / 86400000)

-- The three formatters write the one date that lies so many days after the epoch.
theorem formatters_agree (epochMillis : Nat) :
    Hls.formatProgramDateTime epochMillis = dateTimeText (dateAt epochMillis) (epochMillis % 86400000) ∧
      Hls.formatIso8601Utc epochMillis = dateTimeText (dateAt epochMillis) (epochMillis % 86400000) ∧
      formatIso8601Utc epochMillis = dateTimeText (dateAt epochMillis) (epochMillis % 86400000) ∧
      ∀ other, Calendar.daysFromCivil other = (epochMillis / 86400000 : Nat) ↔ other = dateAt epochMillis := by
  refine ⟨program_date_time_eq epochMillis, subtitle_date_time_eq epochMillis, mpd_date_time_eq epochMillis, ?_⟩
  intro other
  rw [dateAt, ← Calendar.days_from_civil_date (epochMillis / 86400000)]
  exact ⟨fun same => Calendar.days_from_civil_injective same, fun same => congrArg Calendar.daysFromCivil same⟩

end Lvqr.Dash
