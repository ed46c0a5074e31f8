import Ewts.Core.Text
import Mathlib.Algebra.Group.Nat.Defs

/-!
# UTC timestamps

Every runtime prefixes its lines with `YYYY-MM-DDTHH:MM:SS.mmmZ`. Years have four
digits, as they do on every clock these programs run on.
-/

namespace Ewts

/-- Decimal digits at a fixed width, with leading zeros. -/
def fixedDigits : Nat → Nat → Text
  | 0, _ => []
  | w + 1, n => fixedDigits w (n / 10) ++ [⟨0x30 + n % 10, by omega⟩]

/-- Days of a month. -/
def daysInMonth (year month : Nat) : Nat :=
  if month = 2 then if year % 4 = 0 ∧ (year % 100 ≠ 0 ∨ year % 400 = 0) then 29 else 28
  else if month = 4 ∨ month = 6 ∨ month = 9 ∨ month = 11 then 30 else 31

/-- A UTC clock reading with milliseconds. -/
structure Timestamp where
  year : Nat
  month : Nat
  day : Nat
  hour : Nat
  minute : Nat
  second : Nat
  ms : Nat
  year_bounds : 1000 ≤ year ∧ year ≤ 9999
  month_bounds : 1 ≤ month ∧ month ≤ 12
  day_bounds : 1 ≤ day ∧ day ≤ daysInMonth year month
  hour_lt : hour < 24
  minute_lt : minute < 60
  second_lt : second < 60
  ms_lt : ms < 1000

instance : Inhabited Timestamp :=
  ⟨2026, 6, 18, 18, 13, 15, 250, by decide, by decide, by decide, by decide, by decide, by decide,
    by decide⟩

/-- A reading as a line can show it: the year may need leading zeros, and a minute may end in a
leap second. -/
structure Stamp where
  year : Nat
  month : Nat
  day : Nat
  hour : Nat
  minute : Nat
  second : Nat
  ms : Nat
  year_le : year ≤ 9999
  month_bounds : 1 ≤ month ∧ month ≤ 12
  day_bounds : 1 ≤ day ∧ day ≤ daysInMonth year month
  hour_lt : hour < 24
  minute_lt : minute < 60
  second_le : second ≤ 60
  ms_lt : ms < 1000

/-- The timestamp of the lines. -/
def Stamp.iso (t : Stamp) : Text :=
  fixedDigits 4 t.year ++ ch '-' :: fixedDigits 2 t.month ++ ch '-' :: fixedDigits 2 t.day ++
    ch 'T' :: fixedDigits 2 t.hour ++ ch ':' :: fixedDigits 2 t.minute ++
    ch ':' :: fixedDigits 2 t.second ++ ch '.' :: fixedDigits 3 t.ms ++ [ch 'Z']

/-- A clock reading is shown as it is. -/
def Timestamp.stamp (t : Timestamp) : Stamp where
  year := t.year
  month := t.month
  day := t.day
  hour := t.hour
  minute := t.minute
  second := t.second
  ms := t.ms
  year_le := t.year_bounds.2
  month_bounds := t.month_bounds
  day_bounds := t.day_bounds
  hour_lt := t.hour_lt
  minute_lt := t.minute_lt
  second_le := t.second_lt.le
  ms_lt := t.ms_lt

/-- `iso_utc_timestamp_ms` and `CreateTimestamp(true, true)`. -/
def Timestamp.iso (t : Timestamp) : Text :=
  fixedDigits 4 t.year ++ ch '-' :: fixedDigits 2 t.month ++ ch '-' :: fixedDigits 2 t.day ++
    ch 'T' :: fixedDigits 2 t.hour ++ ch ':' :: fixedDigits 2 t.minute ++
    ch ':' :: fixedDigits 2 t.second ++ ch '.' :: fixedDigits 3 t.ms ++ [ch 'Z']

/-- `compact_utc_timestamp` and `CreateCompactTimestampUTC`: `YYYYMMDDTHHMMSS`. -/
def Timestamp.compact (t : Timestamp) : Text :=
  fixedDigits 4 t.year ++ fixedDigits 2 t.month ++ fixedDigits 2 t.day ++
    ch 'T' :: fixedDigits 2 t.hour ++ fixedDigits 2 t.minute ++ fixedDigits 2 t.second

/-- The stamp of a clock reading shows the same timestamp. -/
@[simp] theorem Timestamp.iso_stamp (t : Timestamp) : t.stamp.iso = t.iso := rfl

@[simp] theorem length_fixedDigits (w n : Nat) : (fixedDigits w n).length = w := by
  induction w generalizing n with
  | zero => rfl
  | succ w ih => rw [fixedDigits, List.length_append, ih, List.length_singleton]

/-- A number of fixed width has nothing but digits. -/
theorem fixedDigits_isDigit {w n : Nat} : ∀ c ∈ fixedDigits w n, c.isDigit = true := by
  induction w generalizing n with
  | zero => simp [fixedDigits]
  | succ w ih =>
    intro c hc
    rcases List.mem_append.mp hc with hc | hc
    · exact ih c hc
    · rw [List.mem_singleton.mp hc]
      simp only [CodePoint.isDigit, Bool.and_eq_true, decide_eq_true_eq]
      omega

/-- A number that fits its width is read back from its digits. -/
theorem decimalValue_fixedDigits {w n : Nat} (h : n < 10 ^ w) :
    decimalValue (fixedDigits w n) = n := by
  induction w generalizing n with
  | zero =>
    rw [Nat.pow_zero, Nat.lt_one_iff] at h
    rw [h]
    rfl
  | succ w ih =>
    rw [Nat.pow_succ] at h
    rw [fixedDigits, decimalValue_append_singleton, ih (Nat.div_lt_of_lt_mul (by omega))]
    simp only [CodePoint.digitValue]
    omega

/-- The characters of a timestamp: digits and five separators. -/
theorem Stamp.mem_iso {t : Stamp} {c : CodePoint} (h : c ∈ t.iso) :
    c.isDigit = true ∨ c = ch '-' ∨ c = ch 'T' ∨ c = ch ':' ∨ c = ch '.' ∨ c = ch 'Z' := by
  simp only [iso, List.mem_append, List.mem_cons, List.not_mem_nil, or_false] at h
  have hd := fun w n => @fixedDigits_isDigit w n c
  rcases h with (((((((h | h | h) | h | h) | h | h) | h | h) | h | h) | h | h) | h)
  all_goals first
    | exact Or.inl (hd _ _ h)
    | simp [h]

/-- Those of a clock reading. -/
theorem Timestamp.mem_iso {t : Timestamp} {c : CodePoint} (h : c ∈ t.iso) :
    c.isDigit = true ∨ c = ch '-' ∨ c = ch 'T' ∨ c = ch ':' ∨ c = ch '.' ∨ c = ch 'Z' :=
  t.stamp.mem_iso h

/-- The characters of a compact timestamp. -/
theorem Timestamp.mem_compact {t : Timestamp} {c : CodePoint} (h : c ∈ t.compact) :
    c.isDigit = true ∨ c = ch 'T' := by
  simp only [compact, List.mem_append, List.mem_cons] at h
  have hd := fun w n => @fixedDigits_isDigit w n c
  rcases h with (((((h | h) | h) | h | h) | h) | h)
  all_goals first
    | exact Or.inl (hd _ _ h)
    | exact Or.inr h

theorem Timestamp.iso_ne_nil (t : Timestamp) : t.iso ≠ [] := by
  simp [iso]

end Ewts
