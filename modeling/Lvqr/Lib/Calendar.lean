import Mathlib.Order.Monotone.Basic
import Mathlib.Order.Basic
import Mathlib.Tactic.IntervalCases

set_option autoImplicit false

-- The proleptic Gregorian calendar from year zero on: leap years, the day after a
-- date, days counted up to a date, and the way back by eras of 400 years.
namespace Calendar

def isLeap (year : Nat) : Bool := year % 4 = 0 ∧ (year % 100 ≠ 0 ∨ year % 400 = 0)

def yearDays (year : Nat) : Nat := if isLeap year then 366 else 365

def monthDays (year : Nat) : Nat → Nat
  | 2 => if isLeap year then 29 else 28
  | 4 | 6 | 9 | 11 => 30
  | _ => 31

structure Date where
  year : Nat
  month : Nat
  day : Nat
  monthValid : 1 ≤ month ∧ month ≤ 12
  dayValid : 1 ≤ day ∧ day ≤ monthDays year month
deriving DecidableEq, Repr

theorem month_days_pos (year month : Nat) : 1 ≤ monthDays year month := by
  unfold monthDays
  split
  · split
    · decide
    · decide
  · decide
  · decide
  · decide
  · decide
  · decide

def nextDay (date : Date) : Date :=
  if more : date.day < monthDays date.year date.month then
    { date with day := date.day + 1, dayValid := ⟨Nat.le_add_left 1 _, more⟩ }
  else if fewer : date.month < 12 then
    ⟨date.year, date.month + 1, 1, ⟨Nat.le_add_left 1 _, fewer⟩, ⟨Nat.le_refl 1, month_days_pos _ _⟩⟩
  else ⟨date.year + 1, 1, 1, ⟨Nat.le_refl 1, by decide⟩, ⟨Nat.le_refl 1, month_days_pos _ _⟩⟩

def yearStart : Nat → Nat
  | 0 => 0
  | year + 1 => yearStart year + yearDays year

def monthStart (year : Nat) : Nat → Nat
  | 0 => 0
  | month + 1 => if month = 0 then 0 else monthStart year month + monthDays year month

theorem year_start_succ (year : Nat) : yearStart (year + 1) = yearStart year + yearDays year := rfl

def dayNumber (date : Date) : Nat := yearStart date.year + monthStart date.year date.month + (date.day - 1)

theorem year_ends (year : Nat) : monthStart year 12 + monthDays year 12 = yearDays year := by
  simp only [monthStart, monthDays, yearDays]
  cases isLeap year
  · rfl
  · rfl

theorem month_start_succ (year month : Nat) (real : 1 ≤ month) :
    monthStart year (month + 1) = monthStart year month + monthDays year month := if_neg (by omega)

theorem day_number_next (date : Date) : dayNumber (nextDay date) = dayNumber date + 1 := by
  have month := date.monthValid
  have day := date.dayValid
  rw [nextDay]
  split
  · simp only [dayNumber]
    omega
  · rename_i last
    split
    · simp only [dayNumber, month_start_succ date.year date.month month.1]
      omega
    · rename_i december
      have twelve : date.month = 12 := by omega
      have ends := year_ends date.year
      have january : monthStart (date.year + 1) 1 = 0 := rfl
      simp only [dayNumber, year_start_succ, january, twelve]
      rw [twelve] at day last
      omega

theorem day_number_iterate (count : Nat) (date : Date) : dayNumber (nextDay^[count] date) = dayNumber date + count := by
  induction count with
  | zero => rfl
  | succ count ih => rw [Function.iterate_succ_apply', day_number_next, ih, Nat.add_assoc]

theorem month_start_monotone (year : Nat) : Monotone (monthStart year) := by
  apply monotone_nat_of_le_succ
  intro month
  cases month with
  | zero => exact Nat.zero_le _
  | succ month =>
      rw [month_start_succ year (month + 1) (Nat.le_add_left 1 month)]
      exact Nat.le_add_right _ _

theorem year_start_monotone : Monotone yearStart :=
  monotone_nat_of_le_succ fun _ => Nat.le_add_right _ _

-- A number lies between two neighbours of a monotone sequence in one place only.
theorem place_unique (start : Nat → Nat) (monotone : Monotone start) (number left right : Nat)
    (atLeft : start left ≤ number ∧ number < start (left + 1))
    (atRight : start right ≤ number ∧ number < start (right + 1)) : left = right := by
  rcases Nat.lt_trichotomy left right with before | same | behind
  · have below := monotone (Nat.succ_le_of_lt before)
    simp only [Nat.succ_eq_add_one] at below
    omega
  · exact same
  · have below := monotone (Nat.succ_le_of_lt behind)
    simp only [Nat.succ_eq_add_one] at below
    omega

theorem within_month (date : Date) :
    monthStart date.year date.month ≤ monthStart date.year date.month + (date.day - 1) ∧
      monthStart date.year date.month + (date.day - 1) < monthStart date.year (date.month + 1) := by
  have day := date.dayValid
  rw [month_start_succ date.year date.month date.monthValid.1]
  omega

theorem within_year (date : Date) :
    yearStart date.year ≤ dayNumber date ∧ dayNumber date < yearStart (date.year + 1) := by
  have ends := year_ends date.year
  have inside := (within_month date).2
  have month : monthStart date.year (date.month + 1) ≤ monthStart date.year 13 :=
    month_start_monotone date.year (Nat.succ_le_succ date.monthValid.2)
  rw [month_start_succ date.year 12 (by decide), ends] at month
  rw [dayNumber, year_start_succ]
  omega

theorem day_number_injective : Function.Injective dayNumber := by
  intro left right same
  have year : left.year = right.year := by
    refine place_unique yearStart year_start_monotone (dayNumber left) _ _ (within_year left) ?_
    rw [same]
    exact within_year right
  have month : left.month = right.month := by
    have leftMonth := within_month left
    have rightMonth := within_month right
    rw [dayNumber, dayNumber, year] at same
    rw [year] at leftMonth
    exact place_unique (monthStart right.year) (month_start_monotone right.year) _ _ _ leftMonth (by omega)
  have day : left.day = right.day := by
    have leftDay := left.dayValid.1
    have rightDay := right.dayValid.1
    rw [dayNumber, dayNumber, year, month] at same
    omega
  cases left
  cases right
  cases year
  cases month
  cases day
  rfl

-- Years counted from the first of March, so that a leap day is the last of its year.
def marchStart (year : Nat) : Nat := 365 * year + year / 4 + year / 400 - year / 100

-- What a year adds to the three counts of the leap rules.
theorem leap_counts (year : Nat) (leap : isLeap (year + 1) = true) :
    (year + 1) / 4 = year / 4 + 1 ∧ (year + 1) / 400 + year / 100 = year / 400 + (year + 1) / 100 := by
  simp only [isLeap, decide_eq_true_eq] at leap
  obtain ⟨four, hundred⟩ := leap
  refine ⟨by omega, ?_⟩
  rcases hundred with plain | fourHundred
  · have kept : (year + 1) / 100 = year / 100 := by omega
    have keptToo : (year + 1) / 400 = year / 400 := by omega
    rw [kept, keptToo]
  · have more : (year + 1) / 100 = year / 100 + 1 := by omega
    have moreToo : (year + 1) / 400 = year / 400 + 1 := by omega
    omega

theorem common_counts (year : Nat) (common : ¬isLeap (year + 1) = true) :
    (year + 1) / 400 = year / 400 ∧ (year + 1) / 4 + year / 100 = year / 4 + (year + 1) / 100 := by
  simp only [isLeap, decide_eq_true_eq] at common
  refine ⟨by omega, ?_⟩
  by_cases four : (year + 1) % 4 = 0
  · have hundred : (year + 1) % 100 = 0 := by omega
    have more : (year + 1) / 100 = year / 100 + 1 := by omega
    have moreToo : (year + 1) / 4 = year / 4 + 1 := by omega
    omega
  · have kept : (year + 1) / 100 = year / 100 := by omega
    have keptToo : (year + 1) / 4 = year / 4 := by omega
    omega

theorem year_start_march (year : Nat) : yearStart (year + 1) = marchStart year + 366 := by
  induction year with
  | zero => rfl
  | succ year ih =>
      have fewer : year / 100 ≤ year / 4 ∧ (year + 1) / 100 ≤ (year + 1) / 4 := by omega
      rw [year_start_succ, ih, marchStart, marchStart, yearDays]
      by_cases leap : isLeap (year + 1) = true
      · have counts := leap_counts year leap
        rw [if_pos leap]
        generalize year / 4 = four at *
        generalize year / 100 = hundred at *
        generalize year / 400 = fourHundred at *
        omega
      · have counts := common_counts year leap
        rw [if_neg leap]
        generalize year / 4 = four at *
        generalize year / 100 = hundred at *
        generalize year / 400 = fourHundred at *
        omega

theorem march_first (year : Nat) : yearStart year + monthStart year 3 = marchStart year + 60 := by
  have next := year_start_march year
  have march : monthStart year 3 = if isLeap year then 60 else 59 := by
    simp only [monthStart, monthDays]
    cases isLeap year
    · rfl
    · rfl
  rw [year_start_succ, yearDays] at next
  rw [march]
  by_cases leap : isLeap year = true
  · rw [if_pos leap] at next ⊢
    omega
  · rw [if_neg leap] at next ⊢
    omega

-- An era has 400 years; the day of the era gives the year and the day of the year.
def yearOfEra (dayOfEra : Nat) : Nat := (dayOfEra - dayOfEra / 1460 + dayOfEra / 36524 - dayOfEra / 146096) / 365

def dayOfYear (dayOfEra : Nat) : Nat :=
  dayOfEra - (365 * yearOfEra dayOfEra + yearOfEra dayOfEra / 4 - yearOfEra dayOfEra / 100)

-- Months counted from March, by the lengths that repeat every five months.
def marchMonth (dayOfYear : Nat) : Nat := (5 * dayOfYear + 2) / 153

def civilFromDays (days : Nat) : Nat × Nat × Nat :=
  let dayOfEra := days % 146097
  let day := dayOfYear dayOfEra
  let shifted := marchMonth day
  let month := if shifted < 10 then shifted + 3 else shifted - 9
  let year := yearOfEra dayOfEra + days / 146097 * 400
  (if month ≤ 2 then year + 1 else year, month, day - (153 * shifted + 2) / 5 + 1)

-- Centuries of an era, groups of four years, years, days: the last century, the last
-- group of a century and the last year of a group are the irregular ones.
structure EraParts (dayOfEra century group year day : Nat) : Prop where
  sum : dayOfEra = 36524 * century + 1461 * group + 365 * year + day
  centuries : century ≤ 3
  groups : group ≤ 24
  years : year ≤ 3
  days : day ≤ 365
  leapDay : day = 365 → year = 3 ∧ (group < 24 ∨ century = 3)

theorem era_parts (dayOfEra : Nat) (inside : dayOfEra < 146097) :
    ∃ century group year day, EraParts dayOfEra century group year day := by
  let century := min (dayOfEra / 36524) 3
  let inCentury := dayOfEra - 36524 * century
  let inGroup := inCentury % 1461
  let year := min (inGroup / 365) 3
  refine ⟨century, inCentury / 1461, year, inGroup - 365 * year, ?_⟩
  have centuryBounds : century ≤ 3 ∧ 36524 * century ≤ dayOfEra ∧
      (century < 3 → dayOfEra < 36524 * century + 36524) := by omega
  have yearBounds : year ≤ 3 ∧ 365 * year ≤ inGroup ∧ (year < 3 → inGroup < 365 * year + 365) := by omega
  have groups : inCentury ≤ 36524 ∧ (century < 3 → inCentury < 36524) := by omega
  constructor
  · omega
  · exact centuryBounds.1
  · omega
  · exact yearBounds.1
  · omega
  · omega

theorem year_of_era_eq (dayOfEra century group year day : Nat) (parts : EraParts dayOfEra century group year day) :
    yearOfEra dayOfEra = 100 * century + 4 * group + year := by
  obtain ⟨sum, centuries, groups, years, days, leapDay⟩ := parts
  -- The last day of the era is the only one where the century count runs over.
  have corrected : dayOfEra / 36524 - dayOfEra / 146096 = century ∧ dayOfEra / 146096 ≤ dayOfEra / 36524 := by omega
  have quotient : dayOfEra / 1460 = 25 * century + group + (24 * century + group + 365 * year + day) / 1460 := by omega
  have carry : (24 * century + group + 365 * year + day) / 1460 ≤ 1 := by omega
  have leap : day = 365 → (24 * century + group + 365 * year + day) / 1460 = 1 := by omega
  have first : day = 0 → (24 * century + group + 365 * year + day) / 1460 = 0 := by omega
  rw [yearOfEra]
  omega

theorem day_of_year_eq (dayOfEra century group year day : Nat) (parts : EraParts dayOfEra century group year day) :
    dayOfYear dayOfEra = day := by
  have years := year_of_era_eq dayOfEra century group year day parts
  obtain ⟨sum, centuries, groups, yearBound, -, -⟩ := parts
  rw [dayOfYear, years]
  omega

theorem march_start_parts (era century group year : Nat) (centuries : century ≤ 3) (groups : group ≤ 24)
    (years : year ≤ 3) :
    marchStart (100 * century + 4 * group + year + era * 400) =
      146097 * era + 36524 * century + 1461 * group + 365 * year := by
  rw [marchStart]
  omega

-- Where the shifted months begin, the last of them open at its end.
theorem shifted_month (day : Nat) (inside : day ≤ 365) :
    marchMonth day ≤ 11 ∧ (153 * marchMonth day + 2) / 5 ≤ day ∧ day < (153 * (marchMonth day + 1) + 2) / 5 := by
  rw [marchMonth]
  omega

theorem month_start_shifted (year shifted : Nat) (inside : shifted < 10) :
    monthStart year (shifted + 3) = monthStart year 3 + (153 * shifted + 2) / 5 ∧
      (153 * (shifted + 1) + 2) / 5 ≤ (153 * shifted + 2) / 5 + monthDays year (shifted + 3) := by
  interval_cases shifted <;> simp [monthStart, monthDays, Nat.add_assoc]

theorem leap_after (era century group : Nat) (groups : group ≤ 24) (regular : group < 24 ∨ century = 3) :
    isLeap (100 * century + 4 * group + 3 + era * 400 + 1) = true := by
  simp only [isLeap, decide_eq_true_eq]
  omega

theorem civil_from_days (days : Nat) :
    ∃ date : Date, dayNumber date = days + 60 ∧ civilFromDays days = (date.year, date.month, date.day) := by
  obtain ⟨century, group, yearPart, day, parts⟩ := era_parts (days % 146097) (Nat.mod_lt _ (by decide))
  have yearEq := year_of_era_eq _ century group yearPart day parts
  have dayEq := day_of_year_eq _ century group yearPart day parts
  have split := Nat.div_add_mod days 146097
  obtain ⟨sum, centuries, groups, years, inside, leapDay⟩ := parts
  have starts := march_start_parts (days / 146097) century group yearPart centuries groups years
  have leap : day = 365 → isLeap (100 * century + 4 * group + yearPart + days / 146097 * 400 + 1) = true := by
    intro last
    obtain ⟨three, regular⟩ := leapDay last
    rw [three]
    exact leap_after (days / 146097) century group groups regular
  obtain ⟨months, begins, ends⟩ := shifted_month day inside
  simp only [civilFromDays, yearEq, dayEq]
  generalize 100 * century + 4 * group + yearPart + days / 146097 * 400 = year at starts leap ⊢
  by_cases early : marchMonth day < 10
  · obtain ⟨start, length⟩ := month_start_shifted year (marchMonth day) early
    have first := march_first year
    rw [if_pos early, if_neg (by omega)]
    refine ⟨⟨year, marchMonth day + 3, day - (153 * marchMonth day + 2) / 5 + 1, by omega, by omega⟩, ?_, rfl⟩
    simp only [dayNumber]
    omega
  · have first := year_start_march year
    rw [if_neg early, if_pos (by omega)]
    rcases (show marchMonth day = 10 ∨ marchMonth day = 11 by omega) with january | february
    · rw [january] at begins ends ⊢
      have start : monthStart (year + 1) 1 = 0 := rfl
      have length : monthDays (year + 1) 1 = 31 := rfl
      refine ⟨⟨year + 1, 1, day - 306 + 1, by decide, by omega⟩, ?_, rfl⟩
      simp only [dayNumber]
      omega
    · rw [february] at begins ends ⊢
      have start : monthStart (year + 1) 2 = 31 := rfl
      have length : day - 337 + 1 ≤ monthDays (year + 1) 2 := by
        simp only [monthDays]
        split
        · omega
        · rename_i common
          have last : day ≠ 365 := fun last => common (leap last)
          omega
      refine ⟨⟨year + 1, 2, day - 337 + 1, by decide, by omega⟩, ?_, rfl⟩
      simp only [dayNumber]
      omega

def epoch : Date := ⟨1970, 1, 1, by decide, by decide⟩

def civilDate (days : Nat) : Date := nextDay^[days] epoch

def daysFromCivil (date : Date) : Int := dayNumber date - dayNumber epoch

theorem day_number_epoch : dayNumber epoch = 719528 := by
  have year : yearStart 1970 = marchStart 1969 + 366 := year_start_march 1969
  have month : monthStart 1970 1 = 0 := rfl
  rw [dayNumber, epoch]
  simp only [year, month]
  rfl

theorem days_from_civil_date (days : Nat) : daysFromCivil (civilDate days) = days := by
  rw [daysFromCivil, civilDate, day_number_iterate]
  omega

theorem days_from_civil_injective : Function.Injective daysFromCivil := by
  intro left right same
  rw [daysFromCivil, daysFromCivil] at same
  exact day_number_injective (by omega)

theorem civil_date_eq (days : Nat) :
    civilFromDays (days + 719468) = ((civilDate days).year, (civilDate days).month, (civilDate days).day) := by
  obtain ⟨date, number, civil⟩ := civil_from_days (days + 719468)
  have same : date = civilDate days := by
    apply day_number_injective
    rw [number, civilDate, day_number_iterate, day_number_epoch]
    omega
  rw [civil, same]

end Calendar
