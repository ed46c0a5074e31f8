import Ewts.Core.Gregorian

/-!
# The clock of the Fortran runtime

`date_and_time` reports local time and its offset from UTC in minutes. `adjust_utc` moves the
reading by the offset, one day at a time. Integers are unbounded here.
-/

namespace Ewts.Fortran

/-- The date variables `y`, `mo` and `d`. -/
structure Day where
  y : ℤ
  mo : ℤ
  d : ℤ
  deriving DecidableEq

/-- `days_in_month(y, mo)`; `mod` takes the sign of its first argument. -/
def daysInMonth (y mo : ℤ) : ℤ :=
  let leap := y.tmod 4 = 0 ∧ (y.tmod 100 ≠ 0 ∨ y.tmod 400 = 0)
  if mo = 1 ∨ mo = 3 ∨ mo = 5 ∨ mo = 7 ∨ mo = 8 ∨ mo = 10 ∨ mo = 12 then 31
  else if mo = 4 ∨ mo = 6 ∨ mo = 9 ∨ mo = 11 then 30
  else if mo = 2 then if leap then 29 else 28
  else 30

/-- `inc_day(y, mo, d)`. -/
def incDay (day : Day) : Day :=
  if day.d + 1 ≤ daysInMonth day.y day.mo then ⟨day.y, day.mo, day.d + 1⟩
  else if day.mo + 1 ≤ 12 then ⟨day.y, day.mo + 1, 1⟩
  else ⟨day.y + 1, 1, 1⟩

/-- `dec_day(y, mo, d)`. -/
def decDay (day : Day) : Day :=
  if 1 < day.d then ⟨day.y, day.mo, day.d - 1⟩
  else if 1 ≤ day.mo - 1 then ⟨day.y, day.mo - 1, daysInMonth day.y (day.mo - 1)⟩
  else ⟨day.y - 1, 12, daysInMonth (day.y - 1) 12⟩

/-- The first loop of `adjust_utc`: days are taken while the minutes are negative. -/
def borrowDays (total : ℤ) (day : Day) : ℤ × Day :=
  if total < 0 then borrowDays (total + 1440) (decDay day) else (total, day)
termination_by (-total).toNat

/-- The second loop: days are given while the minutes fill one. -/
def carryDays (total : ℤ) (day : Day) : ℤ × Day :=
  if 1440 ≤ total then carryDays (total - 1440) (incDay day) else (total, day)
termination_by total.toNat

/-- The variables that `adjust_utc` updates. -/
structure Reading where
  day : Day
  h : ℤ
  mi : ℤ
  deriving DecidableEq

/-- `adjust_utc(y, mo, d, h, mi, zone_min)`. -/
def adjustUtc (r : Reading) (zoneMin : ℤ) : Reading :=
  let (total, day) := borrowDays (r.h * 60 + r.mi - zoneMin) r.day
  let (total, day) := carryDays total day
  ⟨day, total.tdiv 60, total.tmod 60⟩

end Ewts.Fortran
