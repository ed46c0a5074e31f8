import Ewts.Runtime.Fortran.Clock

/-!
# UTC readings

One step of the clock changes the day number by one and keeps the date valid. So the loops
keep the minutes since the first day, and end in a reading of one day.
-/

namespace Ewts.Fortran

open Gregorian

variable {day : Day}

/-- A date of the calendar. -/
def Day.Valid (day : Day) : Prop := Gregorian.Valid day.y day.mo day.d

/-- The number of a day. -/
def Day.number (day : Day) : ℤ := dayNumber day.y day.mo day.d

/-- A reading of the clock: a date, an hour and a minute. -/
structure Reading.Valid (r : Reading) : Prop where
  day : r.day.Valid
  hour : 0 ≤ r.h ∧ r.h ≤ 23
  minute : 0 ≤ r.mi ∧ r.mi ≤ 59

/-- The minutes of a reading. -/
def Reading.minutes (r : Reading) : ℤ := r.day.number * 1440 + 60 * r.h + r.mi

/-! ## Single days -/

/-- The remainder of `mod` vanishes at the multiples, whatever its sign. -/
theorem leap_iff (y : ℤ) :
    (y.tmod 4 = 0 ∧ (y.tmod 100 ≠ 0 ∨ y.tmod 400 = 0)) ↔ Leap y := by
  unfold Leap
  rw [Int.dvd_iff_tmod_eq_zero, Int.dvd_iff_tmod_eq_zero, Int.dvd_iff_tmod_eq_zero]

/-- In every month of the year the table is the calendar's. -/
theorem daysInMonth_eq {y mo : ℤ} (h : 1 ≤ mo) (h' : mo ≤ 12) :
    daysInMonth y mo = monthLength y mo := by
  unfold daysInMonth monthLength
  simp only [leap_iff]
  split_ifs <;> omega

/-- The next day has the next number. -/
theorem incDay_spec (h : day.Valid) :
    (incDay day).Valid ∧ (incDay day).number = day.number + 1 := by
  obtain ⟨hmonth, hmonth', hday, hday'⟩ := h
  unfold incDay Day.Valid Day.number
  rw [daysInMonth_eq hmonth hmonth']
  by_cases hin : day.d + 1 ≤ monthLength day.y day.mo
  · rw [if_pos hin]
    exact ⟨⟨hmonth, hmonth', by simp only; omega, hin⟩, dayNumber_add 1⟩
  · rw [if_neg hin]
    -- The last day of a month: the next one begins, or the next year.
    have hlast : day.d = monthLength day.y day.mo := by omega
    have hfirst : ∀ y m, (1 : ℤ) ≤ monthLength y m := fun _ _ => monthLength_pos
    by_cases hmo : day.mo + 1 ≤ 12
    · rw [if_pos hmo, hlast]
      exact ⟨⟨by simp only; omega, hmo, le_rfl, hfirst _ _⟩, dayNumber_next_month hmonth⟩
    · have hdecember : day.mo = 12 := by omega
      rw [if_neg hmo, hlast, hdecember]
      have hyear : (1 : ℤ) ≤ 12 := by decide
      exact ⟨⟨le_rfl, hyear, le_rfl, hfirst _ _⟩, dayNumber_next_year⟩

/-- The day before has the number before. -/
theorem decDay_spec (h : day.Valid) :
    (decDay day).Valid ∧ (decDay day).number = day.number - 1 := by
  obtain ⟨hmonth, hmonth', hday, hday'⟩ := h
  unfold decDay Day.Valid Day.number
  by_cases hin : 1 < day.d
  · rw [if_pos hin]
    exact ⟨⟨hmonth, hmonth', by simp only; omega, by simp only; omega⟩, dayNumber_add (-1)⟩
  · rw [if_neg hin]
    -- The first day of a month: the one before ends, or the year before.
    have hone : day.d = 1 := by omega
    have hfirst : ∀ y m, (1 : ℤ) ≤ monthLength y m := fun _ _ => monthLength_pos
    by_cases hmo : 1 ≤ day.mo - 1
    · have hnext : dayNumber day.y (day.mo - 1 + 1) 1 =
          dayNumber day.y (day.mo - 1) (monthLength day.y (day.mo - 1)) + 1 :=
        dayNumber_next_month hmo
      rw [Int.sub_add_cancel] at hnext
      rw [if_pos hmo, daysInMonth_eq hmo (by omega), hone, hnext, Int.add_sub_cancel]
      exact ⟨⟨hmo, by simp only; omega, hfirst _ _, le_rfl⟩, rfl⟩
    · have hjanuary : day.mo = 1 := by omega
      have hnext : dayNumber (day.y - 1 + 1) 1 1 =
          dayNumber (day.y - 1) 12 (monthLength (day.y - 1) 12) + 1 :=
        dayNumber_next_year
      rw [Int.sub_add_cancel] at hnext
      rw [if_neg hmo, daysInMonth_eq (by decide) (by decide), hone, hjanuary, hnext,
        Int.add_sub_cancel]
      have hyear : (1 : ℤ) ≤ 12 := by decide
      exact ⟨⟨hyear, le_rfl, hfirst (day.y - 1) 12, le_rfl⟩, rfl⟩

/-! ## Loops -/

/-- Borrowing keeps the minutes, and ends when they are not negative. -/
theorem borrowDays_spec (total : ℤ) (h : day.Valid) :
    (borrowDays total day).2.Valid ∧ 0 ≤ (borrowDays total day).1 ∧
      (borrowDays total day).2.number * 1440 + (borrowDays total day).1 =
        day.number * 1440 + total := by
  induction total, day using borrowDays.induct with
  | case1 total day hneg ih =>
    obtain ⟨hvalid, hnumber⟩ := decDay_spec h
    obtain ⟨hday, hpos, hsum⟩ := ih hvalid
    rw [borrowDays, if_pos hneg]
    exact ⟨hday, hpos, by omega⟩
  | case2 total day hneg =>
    rw [borrowDays, if_neg hneg]
    exact ⟨h, by simp only; omega, rfl⟩

/-- Carrying keeps the minutes, and leaves those of one day. -/
theorem carryDays_spec {total : ℤ} (htotal : 0 ≤ total) (h : day.Valid) :
    (carryDays total day).2.Valid ∧
      (0 ≤ (carryDays total day).1 ∧ (carryDays total day).1 < 1440) ∧
      (carryDays total day).2.number * 1440 + (carryDays total day).1 =
        day.number * 1440 + total := by
  induction total, day using carryDays.induct with
  | case1 total day hfull ih =>
    obtain ⟨hvalid, hnumber⟩ := incDay_spec h
    obtain ⟨hday, hrange, hsum⟩ := ih (by omega) hvalid
    rw [carryDays, if_pos hfull]
    exact ⟨hday, hrange, by omega⟩
  | case2 total day hfull =>
    rw [carryDays, if_neg hfull]
    exact ⟨h, ⟨htotal, by simp only; omega⟩, rfl⟩

/-- The minutes that both loops leave are those of a reading. -/
theorem adjustUtc_valid {r : Reading} (zoneMin : ℤ) (h : r.Valid) :
    (adjustUtc r zoneMin).Valid := by
  obtain ⟨hday, hpos, _⟩ := borrowDays_spec (r.h * 60 + r.mi - zoneMin) h.day
  obtain ⟨hday', hrange, _⟩ := carryDays_spec hpos hday
  unfold adjustUtc
  simp only
  generalize carryDays _ _ = carried at *
  obtain ⟨total, day⟩ := carried
  rw [Int.tdiv_eq_ediv_of_nonneg hrange.1, Int.tmod_eq_emod_of_nonneg hrange.1]
  simp only at hrange
  exact ⟨hday', by simp only; omega, by simp only; omega⟩

/-- Both loops keep the minutes. -/
theorem adjustUtc_minutes {r : Reading} (zoneMin : ℤ) (h : r.Valid) :
    (adjustUtc r zoneMin).minutes = r.minutes - zoneMin := by
  obtain ⟨hday, hpos, hsum⟩ := borrowDays_spec (r.h * 60 + r.mi - zoneMin) h.day
  obtain ⟨_, hrange, hsum'⟩ := carryDays_spec hpos hday
  unfold adjustUtc Reading.minutes
  simp only
  generalize carryDays _ _ = carried at *
  obtain ⟨total, day⟩ := carried
  rw [Int.tdiv_eq_ediv_of_nonneg hrange.1, Int.tmod_eq_emod_of_nonneg hrange.1]
  simp only at *
  omega

/-- The adjusted reading is valid and differs by the offset, for every date and every offset. -/
theorem adjustUtc_exact (r : Reading) (zoneMin : ℤ) (h : r.Valid) :
    (adjustUtc r zoneMin).Valid ∧ (adjustUtc r zoneMin).minutes = r.minutes - zoneMin :=
  ⟨adjustUtc_valid zoneMin h, adjustUtc_minutes zoneMin h⟩

/-- One minute into a leap year, five hours ahead of UTC. -/
theorem adjustUtc_exact_leap :
    (adjustUtc ⟨⟨2000, 3, 1⟩, 0, 1⟩ 300).Valid ∧
      (adjustUtc ⟨⟨2000, 3, 1⟩, 0, 1⟩ 300).minutes = Reading.minutes ⟨⟨2000, 3, 1⟩, 0, 1⟩ - 300 :=
  adjustUtc_exact ⟨⟨2000, 3, 1⟩, 0, 1⟩ 300
    ⟨⟨by decide, by decide, by decide, by decide⟩, by decide, by decide⟩

end Ewts.Fortran
