import HopperBench.Library.CheckedWord
import HopperBench.Library.Gregorian

/-!
# The date of the runner's report

`civilFromDays` turns a count of days since 1 January 1970 into a year, a month
and a day.  It counts from the 1 March of an era of 400 years, where the formulas
for the year and the month are single divisions.  Its plain arithmetic is modelled
with checks, so a result means that no step left its type.
-/

set_option autoImplicit false

namespace HopperBench.CivilFromDays

open CheckedWord Gregorian

def eraOf (z : Int64) : Option Int64 := do
  let shifted ← if 0 ≤ z then some z else signedSub z 146096
  return shifted / 146097

def doeOf (z era : Int64) : Option UInt64 := do
  let eraDays ← signedMul era 146097
  let days ← signedSub z eraDays
  return days.toUInt64

def yoeOf (doe : UInt64) : Option UInt64 := do
  let days ← checkedSub doe (doe / 1460)
  let days ← checkedAdd days (doe / 36524)
  let days ← checkedSub days (doe / 146096)
  return days / 365

def yearOf (yoe : UInt64) (era : Int64) : Option Int64 := do
  let eraYears ← signedMul era 400
  signedAdd yoe.toInt64 eraYears

def doyOf (doe yoe : UInt64) : Option UInt64 := do
  let days ← checkedMul 365 yoe
  let days ← checkedAdd days (yoe / 4)
  let days ← checkedSub days (yoe / 100)
  checkedSub doe days

def mpOf (doy : UInt64) : Option UInt64 := do
  let days ← checkedMul 5 doy
  let days ← checkedAdd days 2
  return days / 153

def dayOf (doy mp : UInt64) : Option UInt32 := do
  let days ← checkedMul 153 mp
  let days ← checkedAdd days 2
  let day ← checkedSub doy (days / 5)
  let day ← checkedAdd day 1
  return day.toUInt32

def monthOf (mp : UInt64) : Option UInt32 := do
  let month ← if mp < 10 then checkedAdd mp 3 else checkedSub mp 9
  return month.toUInt32

/-- January and February belong to the March year before their own. -/
def civilYearOf (year : Int64) (month : UInt32) : Option Int64 :=
  if month ≤ 2 then signedAdd year 1 else some year

def civilFromDays (z : Int64) : Option (Int64 × UInt32 × UInt32) := do
  let z ← signedAdd z 719468
  let era ← eraOf z
  let doe ← doeOf z era
  let yoe ← yoeOf doe
  let year ← yearOf yoe era
  let doy ← doyOf doe yoe
  let mp ← mpOf doy
  let day ← dayOf doy mp
  let month ← monthOf mp
  let civilYear ← civilYearOf year month
  return (civilYear, month, day)

structure Represents (result : Int64 × UInt32 × UInt32) (date : Date) : Prop where
  year_eq : result.1.toInt = date.year
  month_eq : result.2.1.toNat = date.month
  day_eq : result.2.2.toNat = date.day

section Steps

variable {date : Date} {era : ℤ} {yoe mp doy doe : ℕ}

theorem eraOf_succeeds {z : Int64} (split : z.toInt = 146097 * era + doe) (inEra : doe < 146097)
    (room : -2 ^ 63 + 146096 ≤ z.toInt) : Succeeds (eraOf z) fun w => w.toInt = era := by
  have quotient (n : Int64) : (n / 146097).toInt = n.toInt.tdiv 146097 :=
    Int64.toInt_div_of_ne_right n _ (by decide)
  by_cases nonneg : 0 ≤ z
  · have nonnegInt : 0 ≤ z.toInt := Int64.le_iff_toInt_le.mp nonneg
    rw [eraOf, if_pos nonneg]
    refine succeeds_some ?_
    rw [quotient, Int.tdiv_eq_ediv_of_nonneg nonnegInt, split]
    omega
  · have negative : z.toInt < 0 := Int.not_le.mp fun le => nonneg (Int64.le_iff_toInt_le.mpr le)
    have upper := z.toInt_lt
    rw [eraOf, if_neg nonneg]
    refine (succeeds_signed (n := z.toInt - 146096) (by omega)).bind fun shifted exact => ?_
    refine succeeds_some ?_
    -- truncation rounds the shifted number up to the era below `z`
    rw [quotient, exact, split,
      show 146097 * era + (doe : ℤ) - 146096 = -(146096 - (146097 * era + doe)) by omega,
      Int.neg_tdiv, Int.tdiv_eq_ediv_of_nonneg (by omega)]
    omega

theorem doeOf_succeeds {z w : Int64} (split : z.toInt = 146097 * era + doe)
    (inEra : doe < 146097) (eraEq : w.toInt = era) (room : -2 ^ 63 + 146096 ≤ z.toInt) :
    Succeeds (doeOf z w) fun v => v.toNat = doe := by
  have upper := z.toInt_lt
  rw [doeOf]
  refine (succeeds_signed (n := w.toInt * 146097) (by omega)).bind fun eraDays eraDaysEq => ?_
  refine (succeeds_signed (n := z.toInt - eraDays.toInt) (by omega)).bind fun days daysEq => ?_
  exact succeeds_some (toNat_toUInt64 (by omega))

/-- Taking away a day for every leap day leaves 365 days for every year. -/
theorem yoe_formula (march : MarchDate date era yoe mp doy doe) :
    (doe - doe / 1460 + doe / 36524 - doe / 146096) / 365 = yoe := by
  obtain ⟨yoeLt, -, -, -, -, -, inYear, days⟩ := march
  obtain ⟨c, q, r, yoeEq, cLt, qLt, rLt⟩ :
      ∃ c q r, yoe = 100 * c + 4 * q + r ∧ c < 4 ∧ q < 25 ∧ r < 4 :=
    ⟨yoe / 100, yoe % 100 / 4, yoe % 4, by omega, by omega, by omega, by omega⟩
  have doeEq : doe = 36524 * c + 1461 * q + 365 * r + doy := by omega
  have leapDay : doy < 365 ∨ doy = 365 ∧ r = 3 ∧ (q = 24 → c = 3) := by omega
  have century : 1461 * q + 365 * r + doy < 36524 ∨ doe = 146096 := by omega
  clear days inYear
  rcases century with inCentury | last
  · have centuries : doe / 36524 = c := Nat.div_eq_of_lt_le (by omega) (by omega)
    have eras : doe / 146096 = 0 := Nat.div_eq_of_lt (by omega)
    have cycles : doe / 1460 = 25 * c + q ∧ 24 * c + q + 365 * r + doy < 1460 ∨
        doe / 1460 = 25 * c + q + 1 ∧ 1460 ≤ 24 * c + q + 365 * r + doy := by
      rcases Nat.lt_or_ge (24 * c + q + 365 * r + doy) 1460 with few | many
      · exact .inl ⟨Nat.div_eq_of_lt_le (by omega) (by omega), few⟩
      · exact .inr ⟨Nat.div_eq_of_lt_le (by omega) (by omega), many⟩
    rw [centuries, eras, yoeEq]
    apply Nat.div_eq_of_lt_le
    · omega
    · omega
  · subst last
    omega

theorem yoeOf_succeeds {w : UInt64} (march : MarchDate date era yoe mp doy w.toNat) :
    Succeeds (yoeOf w) fun v => v.toNat = yoe := by
  have bound := march.doe_lt
  have quadQuotient : (w / 1460).toNat = w.toNat / 1460 := UInt64.toNat_div w _
  have centuryQuotient : (w / 36524).toNat = w.toNat / 36524 := UInt64.toNat_div w _
  have eraQuotient : (w / 146096).toNat = w.toNat / 146096 := UInt64.toNat_div w _
  rw [yoeOf]
  refine (succeeds_sub (by omega)).bind fun a aEq => ?_
  refine (succeeds_add (by omega)).bind fun b bEq => ?_
  refine (succeeds_sub (by omega)).bind fun c cEq => succeeds_some ?_
  have quotient : (c / 365).toNat = c.toNat / 365 := UInt64.toNat_div c _
  rw [quotient, cEq, bEq, aEq, quadQuotient, centuryQuotient, eraQuotient]
  exact yoe_formula march

theorem yearOf_succeeds {w : UInt64} {v : Int64} (inEra : w.toNat < 400) (eraEq : v.toInt = era)
    (room : -2 ^ 48 ≤ era ∧ era < 2 ^ 48) :
    Succeeds (yearOf w v) fun u => u.toInt = 400 * era + w.toNat := by
  have yearOfEra := toInt_toInt64 (w := w) (by omega)
  rw [yearOf]
  refine (succeeds_signed (n := v.toInt * 400) (by omega)).bind fun eraYears eraYearsEq => ?_
  obtain ⟨u, value, uEq⟩ := succeeds_signed (n := w.toInt64.toInt + eraYears.toInt) (by omega)
  exact ⟨u, value, by omega⟩

theorem doyOf_succeeds {w v : UInt64} (march : MarchDate date era v.toNat mp doy w.toNat) :
    Succeeds (doyOf w v) fun u => u.toNat = doy := by
  obtain ⟨yoeLt, -, -, -, -, -, inYear, days⟩ := march
  have quadQuotient : (v / 4).toNat = v.toNat / 4 := UInt64.toNat_div v _
  have centuryQuotient : (v / 100).toNat = v.toNat / 100 := UInt64.toNat_div v _
  rw [doyOf]
  refine (succeeds_mul (k := 365) rfl (by omega)).bind fun a aEq => ?_
  refine (succeeds_add (by omega)).bind fun b bEq => ?_
  refine (succeeds_sub (by omega)).bind fun c cEq => ?_
  obtain ⟨u, value, uEq⟩ := succeeds_sub (a := w) (b := c) (by omega)
  exact ⟨u, value, by omega⟩

theorem mpOf_succeeds {w : UInt64} (march : MarchDate date era yoe mp w.toNat doe) :
    Succeeds (mpOf w) fun v => v.toNat = mp := by
  obtain ⟨-, mpLt, -, -, doyEq, inMonth, -, -⟩ := march
  have dayPos := date.day_pos
  have two : (2 : UInt64).toNat = 2 := rfl
  rw [mpOf]
  refine (succeeds_mul (k := 5) rfl (by omega)).bind fun a aEq => ?_
  refine (succeeds_add (by omega)).bind fun b bEq => succeeds_some ?_
  have quotient : (b / 153).toNat = b.toNat / 153 := UInt64.toNat_div b _
  omega

theorem dayOf_succeeds {w v : UInt64} (march : MarchDate date era yoe v.toNat w.toNat doe) :
    Succeeds (dayOf w v) fun u => u.toNat = date.day := by
  obtain ⟨-, mpLt, -, -, doyEq, inMonth, inYear, -⟩ := march
  have dayPos := date.day_pos
  have two : (2 : UInt64).toNat = 2 := rfl
  have one : (1 : UInt64).toNat = 1 := rfl
  rw [dayOf]
  refine (succeeds_mul (k := 153) rfl (by omega)).bind fun a aEq => ?_
  refine (succeeds_add (by omega)).bind fun b bEq => ?_
  have quotient : (b / 5).toNat = b.toNat / 5 := UInt64.toNat_div b _
  refine (succeeds_sub (by omega)).bind fun c cEq => ?_
  refine (succeeds_add (by omega)).bind fun d dEq => succeeds_some ?_
  rw [UInt64.toNat_toUInt32, Nat.mod_eq_of_lt (by omega)]
  omega

theorem monthOf_succeeds {v : UInt64} (march : MarchDate date era yoe v.toNat doy doe) :
    Succeeds (monthOf v) fun u => u.toNat = date.month := by
  obtain ⟨-, mpLt, -, monthEq, -, -, -, -⟩ := march
  have three : (3 : UInt64).toNat = 3 := rfl
  have nine : (9 : UInt64).toNat = 9 := rfl
  rw [monthOf, monthEq]
  by_cases spring : v < 10
  · have below : v.toNat < 10 := UInt64.lt_iff_toNat_lt.mp spring
    rw [if_pos spring, if_pos below]
    refine (succeeds_add (by omega)).bind fun a aEq => succeeds_some ?_
    rw [UInt64.toNat_toUInt32, Nat.mod_eq_of_lt (by omega)]
    omega
  · have above : ¬v.toNat < 10 := fun below => spring (UInt64.lt_iff_toNat_lt.mpr below)
    rw [if_neg spring, if_neg above]
    refine (succeeds_sub (by omega)).bind fun a aEq => succeeds_some ?_
    rw [UInt64.toNat_toUInt32, Nat.mod_eq_of_lt (by omega)]
    omega

theorem civilYearOf_succeeds {year : Int64} {month : UInt32}
    (march : MarchDate date era yoe mp doy doe) (yearEq : year.toInt = 400 * era + yoe)
    (monthEq : month.toNat = date.month) (room : year.toInt + 1 < 2 ^ 63) :
    Succeeds (civilYearOf year month) fun u => u.toInt = date.year := by
  obtain ⟨-, mpLt, inMarch, monthOfMarch, -, -, -, -⟩ := march
  have lower := year.le_toInt
  rw [civilYearOf]
  by_cases spring : mp < 10
  · rw [if_pos spring] at inMarch monthOfMarch
    have late : ¬month ≤ 2 := fun early => by
      have earlyNat : month.toNat ≤ 2 := UInt32.le_iff_toNat_le.mp early
      omega
    rw [if_neg late]
    exact succeeds_some (by omega)
  · rw [if_neg spring] at inMarch monthOfMarch
    have early : month ≤ 2 := UInt32.le_iff_toNat_le.mpr (show month.toNat ≤ 2 by omega)
    rw [if_pos early]
    obtain ⟨u, value, uEq⟩ := succeeds_signed (n := year.toInt + 1) (by omega)
    exact ⟨u, value, by omega⟩

end Steps

/-- Each step returns what the March form of the date says, on every day whose
shifted number is still a word. -/
theorem civilFromDays_succeeds {z : Int64} {date : Date} (number : z.toInt = dayNumber 1970 date)
    (room : z.toInt + 719468 < 2 ^ 63) :
    Succeeds (civilFromDays z) fun result => Represents result date := by
  obtain ⟨era, yoe, mp, doy, doe, march⟩ := exists_marchDate date
  have split := march.dayNumber_eq 1970
  have offset : eraOffset 1970 = 719468 := by decide
  have inEra := march.doe_lt
  have lower := z.le_toInt
  rw [offset, ← number] at split
  rw [civilFromDays]
  refine (succeeds_signed (n := z.toInt + 719468) (by omega)).bind fun shifted shiftedEq => ?_
  have shiftedSplit := shiftedEq.trans split
  refine (eraOf_succeeds shiftedSplit inEra (by omega)).bind fun eraWord eraEq => ?_
  refine (doeOf_succeeds shiftedSplit inEra eraEq (by omega)).bind fun doeWord doeEq => ?_
  rw [← doeEq] at march
  refine (yoeOf_succeeds march).bind fun yoeWord yoeEq => ?_
  rw [← yoeEq] at march
  refine (yearOf_succeeds march.yoe_lt eraEq (by omega)).bind fun year yearEq => ?_
  refine (doyOf_succeeds march).bind fun doyWord doyEq => ?_
  rw [← doyEq] at march
  refine (mpOf_succeeds march).bind fun mpWord mpEq => ?_
  rw [← mpEq] at march
  refine (dayOf_succeeds march).bind fun day dayEq => ?_
  refine (monthOf_succeeds march).bind fun month monthEq => ?_
  have yoeLt := march.yoe_lt
  refine (civilYearOf_succeeds march yearEq monthEq (by omega)).bind fun civilYear civilYearEq => ?_
  exact succeeds_some ⟨civilYearEq, monthEq, dayEq⟩

/-- Behind the first sum nothing can leave its type. -/
theorem civilFromDays_eq_none {z : Int64} :
    civilFromDays z = none ↔ 2 ^ 63 ≤ z.toInt + 719468 := by
  constructor
  · intro stopped
    by_contra fits
    obtain ⟨date, number⟩ := exists_dayNumber_eq 1970 z.toInt
    obtain ⟨result, returned, _⟩ := civilFromDays_succeeds number.symm (by omega)
    rw [stopped] at returned
    cases returned
  · intro overflows
    have first : signedAdd z 719468 = none := if_neg fun fits => by
      have below : z.toInt + 719468 < 2 ^ 63 := fits.2
      omega
    rw [civilFromDays, first]
    rfl

/-- The result is the Gregorian date of its day, the date of the next day is the
one after it in the calendar, and every date is the result of its own count. -/
theorem civil_from_days_gregorian :
    civilFromDays 0 = some (1970, 1, 1) ∧
      (∀ z : Int64, z.toInt.natAbs ≤ 2 ^ 62 → ∃ result date next,
        civilFromDays z = some result ∧ Represents result date ∧ dayNumber 1970 date = z.toInt ∧
          civilFromDays (z + 1) = some next ∧ Represents next date.next) ∧
      ∀ date : Date, (dayNumber 1970 date).natAbs ≤ 2 ^ 62 → ∃ result,
        civilFromDays (Int64.ofInt (dayNumber 1970 date)) = some result ∧
          Represents result date := by
  refine ⟨by decide +kernel, ?_, ?_⟩
  · intro z inRange
    obtain ⟨date, number⟩ := exists_dayNumber_eq 1970 z.toInt
    have successor : (z + 1).toInt = z.toInt + 1 := by
      rw [Int64.toInt_add, Int64.toInt_one]
      exact Int.bmod_eq_of_le (by omega) (by omega)
    have nextNumber : (z + 1).toInt = dayNumber 1970 date.next := by
      rw [successor, dayNumber_next, number]
    obtain ⟨result, returned, represents⟩ := civilFromDays_succeeds number.symm (by omega)
    obtain ⟨next, nextReturned, nextRepresents⟩ := civilFromDays_succeeds nextNumber (by omega)
    exact ⟨result, date, next, returned, represents, number, nextReturned, nextRepresents⟩
  · intro date inRange
    have word := Int64.toInt_ofInt_of_le (n := dayNumber 1970 date) (by omega) (by omega)
    obtain ⟨result, returned, represents⟩ := civilFromDays_succeeds word (by omega)
    exact ⟨result, returned, represents⟩

example : civilFromDays (-719469) = some (0, 2, 29) := by decide +kernel

/-- `{:04}` and `{:02}`: zeros up to the width, behind the sign. -/
def zeroPadded (width : ℕ) (n : ℤ) : String :=
  let sign := if n < 0 then "-" else ""
  let digits := toString n.natAbs
  sign ++ String.ofList (List.replicate (width - (sign.length + digits.length)) '0') ++ digits

def timestamp (year month day hour minute second : ℤ) : String :=
  zeroPadded 4 year ++ "-" ++ zeroPadded 2 month ++ "-" ++ zeroPadded 2 day ++ " " ++
    zeroPadded 2 hour ++ ":" ++ zeroPadded 2 minute ++ ":" ++ zeroPadded 2 second

/-- The clock gives the seconds since 1 January 1970, or nothing before it. -/
def utcTimestamp (elapsed : Option UInt64) : Option String :=
  match elapsed with
  | none => some "unknown"
  | some secs => do
      let (year, month, day) ← civilFromDays (secs / 86400).toInt64
      let rem := secs % 86400
      return timestamp year.toInt month.toNat day.toNat (rem / 3600).toNat
        (rem % 3600 / 60).toNat (rem % 60).toNat

/-- Every count of seconds is printed as the date and the time it is. -/
theorem utcTimestamp_exact (secs : UInt64) :
    ∃ (date : Date) (hour minute second : ℕ), hour < 24 ∧ minute < 60 ∧ second < 60 ∧
      86400 * dayNumber 1970 date + 3600 * hour + 60 * minute + second = secs.toNat ∧
        utcTimestamp (some secs) =
          some (timestamp date.year date.month date.day hour minute second) := by
  have bound := secs.toNat_lt
  have days : (secs / 86400).toNat = secs.toNat / 86400 := UInt64.toNat_div secs _
  have daysInt := toInt_toInt64 (w := secs / 86400) (by omega)
  obtain ⟨date, number⟩ := exists_dayNumber_eq 1970 (secs / 86400).toInt64.toInt
  obtain ⟨result, returned, represents⟩ := civilFromDays_succeeds number.symm (by omega)
  refine ⟨date, secs.toNat % 86400 / 3600, secs.toNat % 86400 % 3600 / 60,
    secs.toNat % 86400 % 60, by omega, by omega, by omega, by omega, ?_⟩
  obtain ⟨yearEq, monthEq, dayEq⟩ := represents
  simp only [utcTimestamp, returned, Option.bind_eq_bind, Option.bind_some, UInt64.toNat_div,
    UInt64.toNat_mod, yearEq, monthEq, dayEq]
  rfl

end HopperBench.CivilFromDays
