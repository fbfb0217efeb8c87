import Mathlib.Algebra.BigOperators.Intervals
import Mathlib.Tactic.IntervalCases

/-!
# The proleptic Gregorian calendar

The leap rule holds for every year, before and after any origin.  `dayNumber`
counts the days from the first day of the year `origin` by adding up the lengths
of the years and the months in between, and falls below zero before it.  The
calendar repeats every 400 years; counted from 1 March, a leap day is the last
day of its year, which is the form date algorithms compute with.
-/

set_option autoImplicit false

namespace Gregorian

def IsLeap (year : ℤ) : Prop :=
  4 ∣ year ∧ (100 ∣ year → 400 ∣ year)

instance (year : ℤ) : Decidable (IsLeap year) := inferInstanceAs (Decidable (_ ∧ _))

def monthLength (year : ℤ) (month : ℕ) : ℕ :=
  if month = 2 then if IsLeap year then 29 else 28
  else if month = 4 ∨ month = 6 ∨ month = 9 ∨ month = 11 then 30
  else 31

def daysBeforeMonth (year : ℤ) (month : ℕ) : ℕ :=
  ∑ earlier ∈ Finset.Ico 1 month, monthLength year earlier

def yearLength (year : ℤ) : ℕ := daysBeforeMonth year 13

/-- The days from the start of the year `origin` to the start of `year`. -/
def daysBetween (origin year : ℤ) : ℤ :=
  ∑ i ∈ Finset.range (year - origin).toNat, (yearLength (origin + i) : ℤ) -
    ∑ i ∈ Finset.range (origin - year).toNat, (yearLength (year + i) : ℤ)

structure Date where
  year : ℤ
  month : ℕ
  day : ℕ
  month_pos : 1 ≤ month
  month_le : month ≤ 12
  day_pos : 1 ≤ day
  day_le : day ≤ monthLength year month
deriving DecidableEq

def dayNumber (origin : ℤ) (date : Date) : ℤ :=
  daysBetween origin date.year + daysBeforeMonth date.year date.month + (date.day - 1)

theorem monthLength_pos (year : ℤ) (month : ℕ) : 1 ≤ monthLength year month := by
  unfold monthLength
  split_ifs <;> decide

def newYear (year : ℤ) : Date :=
  ⟨year, 1, 1, by decide, by decide, by decide, monthLength_pos year 1⟩

def Date.next (date : Date) : Date :=
  if inMonth : date.day < monthLength date.year date.month then
    { date with day := date.day + 1, day_pos := by omega, day_le := inMonth }
  else if inYear : date.month < 12 then
    ⟨date.year, date.month + 1, 1, by omega, inYear, by decide, monthLength_pos _ _⟩
  else newYear (date.year + 1)

/-! ## Counting -/

theorem yearLength_eq (year : ℤ) : yearLength year = if IsLeap year then 366 else 365 := by
  by_cases leap : IsLeap year <;>
    simp [yearLength, daysBeforeMonth, Finset.sum_Ico_eq_sum_range, Finset.sum_range_succ,
      monthLength, leap]

theorem daysBetween_succ (origin year : ℤ) :
    daysBetween origin (year + 1) = daysBetween origin year + yearLength year := by
  unfold daysBetween
  rcases le_or_gt origin year with future | past
  · obtain ⟨n, rfl⟩ : ∃ n : ℕ, year = origin + n := ⟨(year - origin).toNat, by omega⟩
    have longer : (origin + n + 1 - origin).toNat = n + 1 := by omega
    have before : (origin + n - origin).toNat = n := by omega
    have none : (origin - (origin + n + 1)).toNat = 0 := by omega
    have noneBefore : (origin - (origin + n)).toNat = 0 := by omega
    rw [longer, before, none, noneBefore, Finset.sum_range_succ]
    simp
  · obtain ⟨n, rfl⟩ : ∃ n : ℕ, origin = year + 1 + n := ⟨(origin - (year + 1)).toNat, by omega⟩
    have shorter : (year + 1 + n - (year + 1)).toNat = n := by omega
    have before : (year + 1 + n - year).toNat = n + 1 := by omega
    have none : (year + 1 - (year + 1 + n)).toNat = 0 := by omega
    have noneBefore : (year - (year + 1 + n)).toNat = 0 := by omega
    have shifted (i : ℕ) : year + ((i + 1 : ℕ) : ℤ) = year + 1 + i := by omega
    rw [shorter, before, none, noneBefore, Finset.sum_range_succ']
    simp only [shifted, Finset.range_zero, Finset.sum_empty, Nat.cast_zero, add_zero]
    omega

/-- The leap years before `year`, up to a constant. -/
def leapsBefore (year : ℤ) : ℤ := (year - 1) / 4 - (year - 1) / 100 + (year - 1) / 400

theorem leapsBefore_succ (year : ℤ) :
    365 + leapsBefore (year + 1) = leapsBefore year + yearLength year := by
  rw [yearLength_eq]
  unfold leapsBefore
  by_cases leap : IsLeap year
  · rw [if_pos leap]
    unfold IsLeap at leap
    omega
  · rw [if_neg leap]
    unfold IsLeap at leap
    omega

theorem daysBetween_eq (origin year : ℤ) :
    daysBetween origin year = 365 * (year - origin) + leapsBefore year - leapsBefore origin := by
  induction year using Int.inductionOn' (b := origin) with
  | zero => simp [daysBetween]
  | succ year _ ih =>
      have step := leapsBefore_succ year
      rw [daysBetween_succ, ih]
      omega
  | pred year _ ih =>
      have counted := daysBetween_succ origin (year - 1)
      have step := leapsBefore_succ (year - 1)
      rw [sub_add_cancel] at counted step
      omega

theorem daysBeforeMonth_succ (year : ℤ) {month : ℕ} (started : 1 ≤ month) :
    daysBeforeMonth year (month + 1) = daysBeforeMonth year month + monthLength year month :=
  Finset.sum_Ico_succ_top started _

theorem dayNumber_newYear (origin year : ℤ) :
    dayNumber origin (newYear year) = daysBetween origin year := by
  simp [dayNumber, newYear, daysBeforeMonth]

theorem dayNumber_next (origin : ℤ) (date : Date) :
    dayNumber origin date.next = dayNumber origin date + 1 := by
  have ends := date.day_le
  have counted := daysBeforeMonth_succ date.year date.month_pos
  unfold Date.next
  split_ifs with inMonth inYear
  · simp only [dayNumber]
    omega
  · simp only [dayNumber]
    omega
  · have december : date.month = 12 := le_antisymm date.month_le (Nat.not_lt.mp inYear)
    have whole : yearLength date.year = daysBeforeMonth date.year (date.month + 1) := by
      rw [december, yearLength]
    rw [dayNumber_newYear, daysBetween_succ, whole, counted, dayNumber]
    omega

theorem dayNumber_iterate (origin : ℤ) (date : Date) (n : ℕ) :
    dayNumber origin (Date.next^[n] date) = dayNumber origin date + n := by
  induction n with
  | zero => simp
  | succ n ih =>
      rw [Function.iterate_succ_apply', dayNumber_next, ih]
      omega

theorem exists_dayNumber_eq (origin number : ℤ) : ∃ date, dayNumber origin date = number := by
  have early : daysBetween origin (origin - number.natAbs) ≤ number := by
    rw [daysBetween_eq]
    unfold leapsBefore
    omega
  refine ⟨Date.next^[(number - daysBetween origin (origin - number.natAbs)).toNat]
    (newYear (origin - number.natAbs)), ?_⟩
  rw [dayNumber_iterate, dayNumber_newYear]
  omega

/-! ## Eras -/

/-- A date in eras of 400 years that begin on 1 March: `yoe` is the year of the
era, `mp` the month of that year from March on, `doy` the day of that year and
`doe` the day of the era. -/
structure MarchDate (date : Date) (era : ℤ) (yoe mp doy doe : ℕ) : Prop where
  yoe_lt : yoe < 400
  mp_lt : mp < 12
  year_eq : date.year = 400 * era + yoe + if mp < 10 then 0 else 1
  month_eq : date.month = if mp < 10 then mp + 3 else mp - 9
  doy_eq : doy + 1 = (153 * mp + 2) / 5 + date.day
  doy_inMonth : doy < (153 * (mp + 1) + 2) / 5
  doy_inYear : doy < 365 ∨ doy = 365 ∧ yoe % 4 = 3 ∧ (yoe % 100 = 99 → yoe = 399)
  doe_eq : doe + yoe / 100 = 365 * yoe + yoe / 4 + doy

theorem MarchDate.doe_lt {date : Date} {era : ℤ} {yoe mp doy doe : ℕ}
    (march : MarchDate date era yoe mp doy doe) : doe < 146097 := by
  obtain ⟨yoeLt, -, -, -, -, -, inYear, doeEq⟩ := march
  omega

/-- From March to January the months follow each other as the multiples of 30.6. -/
theorem monthLength_march (year : ℤ) {mp : ℕ} (before : mp < 11) :
    (153 * mp + 2) / 5 + monthLength year (if mp < 10 then mp + 3 else mp - 9) =
      (153 * (mp + 1) + 2) / 5 := by
  interval_cases mp <;> simp [monthLength]

theorem exists_marchMonth (date : Date) :
    ∃ mp, mp < 12 ∧ date.month = if mp < 10 then mp + 3 else mp - 9 := by
  have monthPos := date.month_pos
  have monthLe := date.month_le
  rcases le_or_gt date.month 2 with early | late
  · refine ⟨date.month + 9, by omega, ?_⟩
    rw [if_neg (by omega)]
    omega
  · refine ⟨date.month - 3, by omega, ?_⟩
    rw [if_pos (by omega)]
    omega

/-- A day stays before the next month, and only a 29 February is day 366. -/
theorem day_march {date : Date} {mp : ℕ} (inYear : mp < 12)
    (monthEq : date.month = if mp < 10 then mp + 3 else mp - 9) :
    (153 * mp + 2) / 5 + date.day ≤ (153 * (mp + 1) + 2) / 5 ∧
      ((153 * mp + 2) / 5 + date.day ≤ 365 ∨
        (153 * mp + 2) / 5 + date.day = 366 ∧ mp = 11 ∧ IsLeap date.year) := by
  have dayLe := date.day_le
  rw [monthEq] at dayLe
  rcases Nat.lt_or_ge mp 11 with before | last
  · have ends := monthLength_march date.year before
    exact ⟨by omega, .inl (by omega)⟩
  · obtain rfl : mp = 11 := by omega
    have february : monthLength date.year 2 = if IsLeap date.year then 29 else 28 := rfl
    have ends : date.day ≤ monthLength date.year 2 := dayLe
    rw [february] at ends
    by_cases leap : IsLeap date.year
    · rw [if_pos leap] at ends
      have days : (153 * 11 + 2) / 5 + date.day ≤ 365 ∨ (153 * 11 + 2) / 5 + date.day = 366 := by
        omega
      exact ⟨by omega, days.imp_right fun last => ⟨last, rfl, leap⟩⟩
    · rw [if_neg leap] at ends
      exact ⟨by omega, .inl (by omega)⟩

theorem exists_marchDate (date : Date) :
    ∃ era yoe mp doy doe, MarchDate date era yoe mp doy doe := by
  have dayPos := date.day_pos
  obtain ⟨mp, mpLt, monthEq⟩ := exists_marchMonth date
  obtain ⟨start, startEq⟩ : ∃ start : ℤ, date.year = start + if mp < 10 then 0 else 1 :=
    ⟨date.year - if mp < 10 then 0 else 1, by omega⟩
  obtain ⟨yoe, yoeEq⟩ : ∃ yoe : ℕ, start = 400 * (start / 400) + yoe :=
    ⟨(start % 400).toNat, by omega⟩
  obtain ⟨inMonth, inYear⟩ := day_march mpLt monthEq
  have leapDay : mp = 11 ∧ IsLeap date.year → yoe % 4 = 3 ∧ (yoe % 100 = 99 → yoe = 399) := by
    intro february
    obtain ⟨rfl, leap⟩ := february
    -- February belongs to the March year before its own
    unfold IsLeap at leap
    omega
  have inMarchYear := inYear.imp_right (And.imp_right leapDay)
  refine ⟨start / 400, yoe, mp, (153 * mp + 2) / 5 + (date.day - 1),
    365 * yoe + yoe / 4 - yoe / 100 + ((153 * mp + 2) / 5 + (date.day - 1)), ?_⟩
  constructor
  all_goals omega

/-- The days from the start of the first era to the year `origin`. -/
def eraOffset (origin : ℤ) : ℤ := 365 * origin + leapsBefore origin - 59

theorem daysBeforeMonth_march (year : ℤ) {mp : ℕ} (before : mp < 10) :
    daysBeforeMonth year (mp + 3) + 306 = (153 * mp + 2) / 5 + yearLength year := by
  induction mp with
  | zero =>
      rw [yearLength_eq]
      by_cases leap : IsLeap year <;>
        simp [daysBeforeMonth, Finset.sum_Ico_eq_sum_range, Finset.sum_range_succ, monthLength,
          leap]
  | succ mp ih =>
      have step := monthLength_march year (by omega : mp < 11)
      have counted := daysBeforeMonth_succ year (by omega : 1 ≤ mp + 3)
      rw [if_pos (by omega)] at step
      have behind := ih (by omega)
      rw [show mp + 1 + 3 = mp + 3 + 1 by omega, counted]
      omega

theorem leapsBefore_era (era : ℤ) {yoe : ℕ} (inEra : yoe < 400) :
    leapsBefore (400 * era + yoe + 1) = 97 * era + yoe / 4 - yoe / 100 := by
  unfold leapsBefore
  omega

theorem MarchDate.dayNumber_eq {date : Date} {era : ℤ} {yoe mp doy doe : ℕ}
    (march : MarchDate date era yoe mp doy doe) (origin : ℤ) :
    dayNumber origin date + eraOffset origin = 146097 * era + doe := by
  obtain ⟨yoeLt, mpLt, yearEq, monthEq, doyEq, -, -, doeEq⟩ := march
  have leaps := leapsBefore_era era yoeLt
  rw [dayNumber, daysBetween_eq, eraOffset, monthEq]
  by_cases early : mp < 10
  · have counted := daysBeforeMonth_march date.year early
    have step := leapsBefore_succ date.year
    rw [if_pos early] at yearEq ⊢
    rw [yearEq, add_zero] at step counted ⊢
    omega
  · have counted : daysBeforeMonth date.year (mp - 9) + 306 = (153 * mp + 2) / 5 := by
      rcases (by omega : mp = 10 ∨ mp = 11) with rfl | rfl <;> simp [daysBeforeMonth, monthLength]
    rw [if_neg early] at yearEq ⊢
    rw [yearEq] at counted ⊢
    omega

end Gregorian
