import Ewts.Core.Json.Grammar

/-!
# Doubles at the text boundary

The programs print and read doubles, compare them with two bounds and do no other
arithmetic. `Floats` collects these operations of the C++ and Python libraries
with the facts about them that the programs rely on.
-/

namespace Ewts

open Json

/-- The operations on doubles that cross the text boundary. -/
structure Floats (F : Type) where
  /-- `x < 0.0`. -/
  negative : F → Bool
  /-- `0.0 <= x <= 1.0`. -/
  inUnit : F → Bool
  /-- Neither infinite nor a NaN. -/
  finite : F → Bool
  /-- `-1.0`. -/
  minusOne : F
  /-- `0.0`. -/
  zero : F
  /-- `1.0`. -/
  one : F
  /-- Python `repr`, which `json.dumps` writes. -/
  repr : F → Text
  /-- C++ `operator<<` with `std::defaultfloat` and six digits. -/
  print : F → Text
  /-- Python `float` of the number that `json.loads` makes of a numeral; absent when
  an integer is too large to convert. -/
  ofNumeral : Numeral → Option F
  /-- The floats of the names `NaN`, `Infinity` and `-Infinity`. -/
  ofConstant : Text → F
  /-- C++ `operator>>` on a text that must be consumed whole. -/
  ofStream : Text → Option F
  inUnit_bounds : ∀ x, inUnit x = true → finite x = true ∧ negative x = false
  minusOne_negative : negative minusOne = true
  /-- `repr` writes a fraction or an exponent, and reading it back is exact. -/
  repr_reads : ∀ x, inUnit x = true → ∃ n : Numeral,
    n.WellFormed ∧ n.isFloat = true ∧ n.text = repr x ∧ ofNumeral n = some x
  stream_repr : ∀ x, inUnit x = true → ofStream (repr x) = some x
  stream_null : ofStream (text "null") = none
  /-- Printed doubles are short numerals; rounding to six digits keeps the unit interval. -/
  print_reads : ∀ x, finite x = true → negative x = false → ∃ n : Numeral,
    n.WellFormed ∧ n.int.length ≤ 4300 ∧ n.text = print x ∧
      ∃ y, ofNumeral n = some y ∧ (inUnit x = true → inUnit y = true)

/-- A few doubles on which the operations can be evaluated. `overOne` is 1.0000001,
which six digits cannot tell from 1. -/
inductive SampleFloat where
  | minusOne
  | zero
  | half
  | one
  | overOne
  | two
  deriving DecidableEq, Repr

namespace SampleFloat

/-- Python's shortest decimal that reads back. -/
def repr : SampleFloat → Text
  | minusOne => text "-1.0"
  | zero => text "0.0"
  | half => text "0.5"
  | one => text "1.0"
  | overOne => text "1.0000001"
  | two => text "2.0"

/-- C++ with six significant digits. -/
def print : SampleFloat → Text
  | minusOne => text "-1"
  | zero => text "0"
  | half => text "0.5"
  | one => text "1"
  | overOne => text "1"
  | two => text "2"

/-- The sample that a decimal text denotes. -/
def ofText (t : Text) : Option SampleFloat :=
  [(text "-1.0", minusOne), (text "-1", minusOne), (text "0.0", zero), (text "0", zero),
    (text "0.5", half), (text "1.0", one), (text "1", one), (text "1.0000001", overOne),
    (text "2.0", two), (text "2", two)].lookup t

/-- Unsigned digits without a leading zero form a numeral. -/
private theorem wellFormed_digit (c : Char) (hc : (ch c).isDigit = true) :
    IsUnsignedInt [ch c] := by
  by_cases h0 : ch c = ch '0'
  · exact Or.inl (by rw [h0])
  · exact Or.inr ⟨ch c, [], rfl, h0, hc, by simp⟩

private theorem wellFormed_int (c : Char) (hc : (ch c).isDigit = true) :
    Numeral.WellFormed ⟨[ch c], [], []⟩ :=
  ⟨⟨[], [ch c], rfl, Or.inl rfl, wellFormed_digit c hc⟩, Or.inl rfl, Or.inl rfl⟩

/-- A digit with a fraction is a numeral of JSON. -/
private theorem wellFormed_frac (c : Char) (hc : (ch c).isDigit = true) (ds : Text)
    (hds : IsDigits ds) : Numeral.WellFormed ⟨[ch c], ch '.' :: ds, []⟩ :=
  ⟨⟨[], [ch c], rfl, Or.inl rfl, wellFormed_digit c hc⟩, Or.inr ⟨ds, rfl, hds⟩, Or.inl rfl⟩

private theorem isDigits_one (c : Char) (hc : (ch c).isDigit = true) : IsDigits [ch c] :=
  ⟨by simp, by simpa using hc⟩

/-- The sample doubles behave as the libraries do on them. -/
def floats : Floats SampleFloat where
  negative x := x = minusOne
  inUnit x := x = zero || x = half || x = one
  finite _ := true
  minusOne := minusOne
  zero := zero
  one := one
  repr := repr
  print := print
  ofNumeral n := ofText n.text
  ofConstant _ := two
  ofStream := ofText
  inUnit_bounds x h := by cases x <;> simp_all
  minusOne_negative := rfl
  repr_reads x h := by
    cases x with
    | zero => exact ⟨⟨[ch '0'], ch '.' :: [ch '0'], []⟩,
        wellFormed_frac '0' rfl _ (isDigits_one '0' rfl), rfl, rfl, rfl⟩
    | half => exact ⟨⟨[ch '0'], ch '.' :: [ch '5'], []⟩,
        wellFormed_frac '0' rfl _ (isDigits_one '5' rfl), rfl, rfl, rfl⟩
    | one => exact ⟨⟨[ch '1'], ch '.' :: [ch '0'], []⟩,
        wellFormed_frac '1' rfl _ (isDigits_one '0' rfl), rfl, rfl, rfl⟩
    | _ => simp at h
  stream_repr x _ := by cases x <;> rfl
  stream_null := rfl
  print_reads x _ hneg := by
    cases x with
    | minusOne => simp at hneg
    | zero => exact ⟨⟨[ch '0'], [], []⟩, wellFormed_int '0' rfl, by decide, rfl, zero, rfl, by simp⟩
    | half => exact ⟨⟨[ch '0'], ch '.' :: [ch '5'], []⟩,
        wellFormed_frac '0' rfl _ (isDigits_one '5' rfl), by decide, rfl, half, rfl, by simp⟩
    | one => exact ⟨⟨[ch '1'], [], []⟩, wellFormed_int '1' rfl, by decide, rfl, one, rfl, by simp⟩
    | overOne =>
      exact ⟨⟨[ch '1'], [], []⟩, wellFormed_int '1' rfl, by decide, rfl, one, rfl, by simp⟩
    | two => exact ⟨⟨[ch '2'], [], []⟩, wellFormed_int '2' rfl, by decide, rfl, two, rfl, by simp⟩

theorem inUnit_half : ∀ x ∈ some half, floats.inUnit x = true := by
  simp [floats]

end SampleFloat

end Ewts
