import Mathlib.Algebra.BigOperators.Intervals
import Mathlib.Tactic.Ring

/-!
# The proleptic Gregorian calendar

Dates over all integer years, and the number of a day: counted from the first of January of
year 1, which is day 1. One lemma for each way in which a date is followed by the next one.
-/

namespace Ewts.Gregorian

/-- Leap years: every fourth one, but of the centuries every fourth one only. -/
def Leap (year : ℤ) : Prop := 4 ∣ year ∧ (¬ 100 ∣ year ∨ 400 ∣ year)

instance (year : ℤ) : Decidable (Leap year) :=
  inferInstanceAs (Decidable (4 ∣ year ∧ (¬ 100 ∣ year ∨ 400 ∣ year)))

/-- The days of a month. -/
def monthLength (year month : ℤ) : ℤ :=
  if month = 2 then if Leap year then 29 else 28
  else if month = 4 ∨ month = 6 ∨ month = 9 ∨ month = 11 then 30 else 31

/-- A date of the calendar. -/
structure Valid (year month day : ℤ) : Prop where
  month_pos : 1 ≤ month
  month_le : month ≤ 12
  day_pos : 1 ≤ day
  day_le : day ≤ monthLength year month

/-- The days before a year. -/
def daysBeforeYear (year : ℤ) : ℤ :=
  365 * (year - 1) + (year - 1) / 4 - (year - 1) / 100 + (year - 1) / 400

/-- The days of a year before a month. -/
def daysBeforeMonth (year month : ℤ) : ℤ :=
  ∑ m ∈ Finset.range (month - 1).toNat, monthLength year (m + 1)

/-- The number of a day. -/
def dayNumber (year month day : ℤ) : ℤ := daysBeforeYear year + daysBeforeMonth year month + day

variable {year month day : ℤ}

/-- No month is empty. -/
theorem monthLength_pos : 0 < monthLength year month := by
  unfold monthLength
  split_ifs <;> decide

/-- Days of a month are numbered one after the other. -/
@[simp] theorem dayNumber_add (n : ℤ) :
    dayNumber year month (day + n) = dayNumber year month day + n := by
  unfold dayNumber
  ring

@[simp] theorem daysBeforeMonth_one : daysBeforeMonth year 1 = 0 := rfl

/-- A month begins when the one before it is over. -/
theorem daysBeforeMonth_succ (h : 1 ≤ month) :
    daysBeforeMonth year (month + 1) = daysBeforeMonth year month + monthLength year month := by
  have hnat : (month + 1 - 1).toNat = (month - 1).toNat + 1 := by omega
  have hcast : ((month - 1).toNat : ℤ) + 1 = month := by omega
  unfold daysBeforeMonth
  rw [hnat, Finset.sum_range_succ, hcast]

/-- A leap year differs from a common one in February. -/
theorem monthLength_eq : monthLength year month =
    monthLength 1 month + if month = 2 then if Leap year then 1 else 0 else 0 := by
  have hcommon : ¬ Leap 1 := by decide
  unfold monthLength
  split_ifs <;> rfl

/-- The months make up a year. -/
theorem daysBeforeMonth_thirteen :
    daysBeforeMonth year 13 = 365 + if Leap year then 1 else 0 := by
  have hcommon : ∑ m ∈ Finset.range 12, monthLength 1 (m + 1) = 365 := by decide
  have hfebruary : ∑ m ∈ Finset.range 12, (if (m : ℤ) + 1 = 2 then if Leap year then 1 else 0
      else 0 : ℤ) = if Leap year then 1 else 0 := by
    rw [Finset.sum_eq_single 1 _ (by simp)]
    · rfl
    · intro m _ hm
      exact if_neg (by omega)
  unfold daysBeforeMonth
  rw [Finset.sum_congr rfl fun m _ => monthLength_eq, Finset.sum_add_distrib]
  exact congrArg₂ (· + ·) hcommon hfebruary

/-- A year begins when the one before it is over. -/
theorem daysBeforeYear_succ : daysBeforeYear (year + 1) =
    daysBeforeYear year + 365 + if Leap year then 1 else 0 := by
  unfold daysBeforeYear Leap
  split_ifs <;> omega

/-- The first day of the next month follows the last one of a month. -/
theorem dayNumber_next_month (h : 1 ≤ month) : dayNumber year (month + 1) 1 =
    dayNumber year month (monthLength year month) + 1 := by
  unfold dayNumber
  rw [daysBeforeMonth_succ h]
  ring

/-- New Year follows the last day of December. -/
theorem dayNumber_next_year :
    dayNumber (year + 1) 1 1 = dayNumber year 12 (monthLength year 12) + 1 := by
  have hend : daysBeforeMonth year (12 + 1) = daysBeforeMonth year 12 + monthLength year 12 :=
    daysBeforeMonth_succ (by decide)
  rw [show (12 : ℤ) + 1 = 13 from rfl, daysBeforeMonth_thirteen] at hend
  unfold dayNumber
  rw [daysBeforeYear_succ, daysBeforeMonth_one]
  omega

end Ewts.Gregorian
