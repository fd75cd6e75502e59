import Mathlib.Data.Int.Init

/-!
# Foundations/Calendar — days of the Gregorian calendar

    era (400 years) ── year of the era ── day of the year ── month and day

Years are counted from March, so that the leap day is the last of its year.  Every level is a
division with a remainder, and the remainder of the level above fixes the one below: a day number is
split and put together again (`toDays_ofDays`).
-/

namespace Calendar

/-- The days of an era before one of its years. -/
def daysBeforeYear (yearOfEra : Int) : Int := 365 * yearOfEra + yearOfEra / 4 - yearOfEra / 100

/-- The year of an era that a day of the era lies in.  The last century has one day more, and so has
the last year of four. -/
def yearOfEra (dayOfEra : Int) : Int :=
  let century := min (dayOfEra / 36524) 3
  let dayOfCentury := dayOfEra - 36524 * century
  let dayOfFour := dayOfCentury % 1461
  100 * century + 4 * (dayOfCentury / 1461) + min (dayOfFour / 365) 3

/-- The days of a year before one of its months, March being month 0. -/
def daysBeforeMonth (month : Int) : Int := (153 * month + 2) / 5

/-- The month that a day of the year lies in. -/
def monthOfYear (dayOfYear : Int) : Int := (5 * dayOfYear + 2) / 153

theorem yearOfEra_spec {n : Int} (h : 0 ≤ n) (hlt : n < 146097) :
    0 ≤ yearOfEra n ∧ yearOfEra n ≤ 399 ∧ daysBeforeYear (yearOfEra n) ≤ n
      ∧ n ≤ daysBeforeYear (yearOfEra n) + 365 := by
  rw [yearOfEra, daysBeforeYear]
  generalize hcentury : min (n / 36524) 3 = c
  have hc : 0 ≤ c ∧ c ≤ 3 ∧ 0 ≤ n - 36524 * c ∧ n - 36524 * c ≤ 36524
      ∧ (c < 3 → n - 36524 * c < 36524) := by omega
  generalize hfour : (n - 36524 * c) / 1461 = q
  have hq : 0 ≤ q ∧ q ≤ 24 ∧ (n - 36524 * c) % 1461 = n - 36524 * c - 1461 * q := by omega
  rw [hq.2.2]
  generalize hyear : min ((n - 36524 * c - 1461 * q) / 365) 3 = y
  have hdiv : (100 * c + 4 * q + y) / 4 = 25 * c + q ∧ (100 * c + 4 * q + y) / 100 = c := by omega
  rw [hdiv.1, hdiv.2]
  omega

theorem monthOfYear_spec {n : Int} (h : 0 ≤ n) (hle : n ≤ 365) :
    0 ≤ monthOfYear n ∧ monthOfYear n ≤ 11 ∧ daysBeforeMonth (monthOfYear n) ≤ n
      ∧ n ≤ daysBeforeMonth (monthOfYear n) + 30 := by
  rw [daysBeforeMonth, monthOfYear]
  omega

/-- A date: January is month 1. -/
structure Date where
  year : Int
  month : Int
  day : Int
  deriving DecidableEq

namespace Date

/-- The first of March of year 0, where the eras start. -/
def epoch : Int := -719468

/-- The days since the first of January 1970. -/
def toDays (x : Date) : Int :=
  let year := if x.month ≤ 2 then x.year - 1 else x.year
  let month := if x.month ≤ 2 then x.month + 9 else x.month - 3
  epoch + 146097 * (year / 400) + daysBeforeYear (year % 400) + daysBeforeMonth month + x.day - 1

/-- The date of a day. -/
def ofDays (n : Int) : Date :=
  let dayOfEra := (n - epoch) % 146097
  let year := 400 * ((n - epoch) / 146097) + yearOfEra dayOfEra
  let dayOfYear := dayOfEra - daysBeforeYear (yearOfEra dayOfEra)
  let month := monthOfYear dayOfYear
  { year := if month < 10 then year else year + 1
    month := if month < 10 then month + 3 else month - 9
    day := dayOfYear - daysBeforeMonth month + 1 }

theorem ofDays_bounds (n : Int) :
    1 ≤ (ofDays n).month ∧ (ofDays n).month ≤ 12 ∧ 1 ≤ (ofDays n).day ∧ (ofDays n).day ≤ 31 := by
  obtain ⟨-, -, hyear⟩ := yearOfEra_spec (n := (n - epoch) % 146097) (by omega) (by omega)
  have hmonth := monthOfYear_spec
    (n := (n - epoch) % 146097 - daysBeforeYear (yearOfEra ((n - epoch) % 146097)))
    (by omega) (by omega)
  rw [ofDays]
  dsimp only
  omega

/-- The year lies in the era of the day, or starts the next one. -/
theorem ofDays_year_bounds (n : Int) : 400 * ((n - epoch) / 146097) ≤ (ofDays n).year
    ∧ (ofDays n).year ≤ 400 * ((n - epoch) / 146097) + 400 := by
  obtain ⟨hlow, hhigh, -⟩ := yearOfEra_spec (n := (n - epoch) % 146097) (by omega) (by omega)
  rw [ofDays]
  dsimp only
  omega

/-- Near the start of 1970 the year is one of the epoch, or the one before it. -/
theorem ofDays_year_of_le {n : Int} (h : -2 ≤ n) : 1969 ≤ (ofDays n).year := by
  have hepoch : epoch = -719468 := rfl
  obtain ⟨hlow, -, -, hyear⟩ := yearOfEra_spec (n := (n - epoch) % 146097) (by omega) (by omega)
  have hera : 4 ≤ (n - epoch) / 146097 := by omega
  have hmarch : 1969 ≤ 400 * ((n - epoch) / 146097) + yearOfEra ((n - epoch) % 146097) := by
    rw [daysBeforeYear] at hyear
    omega
  rw [ofDays]
  dsimp only
  omega

/-- **A day is found again from its date.** -/
theorem toDays_ofDays (n : Int) : (ofDays n).toDays = n := by
  obtain ⟨hlow, hhigh, hyear⟩ := yearOfEra_spec (n := (n - epoch) % 146097) (by omega) (by omega)
  obtain ⟨hfirst, hlast, -⟩ := monthOfYear_spec
    (n := (n - epoch) % 146097 - daysBeforeYear (yearOfEra ((n - epoch) % 146097)))
    (by omega) (by omega)
  rw [toDays, ofDays]
  dsimp only
  generalize yearOfEra ((n - epoch) % 146097) = y at *
  generalize hday : (n - epoch) % 146097 - daysBeforeYear y = dayOfYear at *
  generalize monthOfYear dayOfYear = month at *
  have hdiv : (400 * ((n - epoch) / 146097) + y) / 400 = (n - epoch) / 146097 := by omega
  have hmod : (400 * ((n - epoch) / 146097) + y) % 400 = y := by omega
  by_cases hmonth : month < 10
  · have hmarch : ¬ month + 3 ≤ 2 := by omega
    rw [if_pos hmonth, if_pos hmonth, if_neg hmarch, if_neg hmarch, Int.add_sub_cancel, hdiv, hmod]
    omega
  · have hmarch : month - 9 ≤ 2 := by omega
    rw [if_neg hmonth, if_neg hmonth, if_pos hmarch, if_pos hmarch, Int.add_sub_cancel,
      Int.sub_add_cancel, hdiv, hmod]
    omega

example : ofDays 16729 = ⟨2015, 10, 21⟩ := by decide

end Date

end Calendar
