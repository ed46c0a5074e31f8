import Ewts.Core.Environ
import Ewts.Core.Trim

/-!
# C strings and numbers

What C and C++ functions make of texts: a C string ends at its first NUL, conversions
read the longest numeric prefix and saturate at the bounds of `long`.
-/

namespace Ewts

/-- The part of a text that a C function sees. -/
def cStr (s : Text) : Text := s.takeWhile (· ≠ 0)

/-- Trim ASCII white space on both sides. -/
def trim (s : Text) : Text := (s.dropWhile CodePoint.isSpaceC).rdropWhile CodePoint.isSpaceC

/-- Bounds of a 64-bit `long`. -/
def clampLong (x : Int) : Int := max (-0x8000000000000000) (min 0x7FFFFFFFFFFFFFFF x)

/-- Conversion of a `long` to a 32-bit `int`. -/
def toInt32 (x : Int) : Int := Int.bmod x 0x100000000

/-- `strtol(s, &end, 10)`: the value and the text at `end`. -/
def strtol (s : Text) : Int × Text :=
  let r := s.dropWhile CodePoint.isSpaceC
  let signed := r.head? = some (ch '-') || r.head? = some (ch '+')
  let digits := if signed then r.drop 1 else r
  if digits.takeWhile CodePoint.isDigit = [] then (0, s)
  else
    let n : Int := decimalValue (digits.takeWhile CodePoint.isDigit)
    (clampLong (if r.head? = some (ch '-') then -n else n), digits.dropWhile CodePoint.isDigit)

/-- A text without its sign. -/
def unsigned (s : Text) : Text :=
  if s.head? = some (ch '-') || s.head? = some (ch '+') then s.drop 1 else s

/-- `atoi(s)`, as the C library computes it. -/
def atoi (s : Text) : Int := toInt32 (strtol s).1

/-- Digits only, and at least one. -/
def isDigitString (s : Text) : Bool := s ≠ [] && s.all CodePoint.isDigit

/-- `getenv(name)`: a C string, empty when the variable is not set. No caller tells an
unset variable from an empty one. -/
def getenv (env : Environ) (name : Text) : Text := cStr ((env name).getD [])

/-- `INT_MAX`. -/
def intMax : Nat := 2147483647

/-- `vsnprintf` into a buffer of the size that it asks for. A format with conversion
specifications is expanded with the arguments; a text that is longer than an `int` can say
is refused. -/
def vsnprintf (expand : Text → Option Text) (format : Text) : Option Text :=
  (if format.any (· = ch '%') then expand format else some format).filter (·.length ≤ intMax)

/-- Trimming only takes characters away. -/
theorem mem_of_mem_trim {s : Text} {c : CodePoint} (h : c ∈ trim s) : c ∈ s :=
  mem_of_mem_trimWith h

/-- A C string ends before its first NUL. -/
theorem cStr_no_nul {s : Text} {c : CodePoint} (h : c ∈ cStr s) : c ≠ 0 := by
  simpa using List.mem_takeWhile_imp h

/-- A text without NUL is seen whole. -/
theorem cStr_of_no_nul {s : Text} (h : ∀ c ∈ s, c ≠ 0) : cStr s = s :=
  List.takeWhile_eq_self_iff.mpr fun c hc => decide_eq_true (h c hc)

theorem cStr_cStr (s : Text) : cStr (cStr s) = cStr s :=
  cStr_of_no_nul fun _ hc => cStr_no_nul hc

/-- The check accepts the non-empty texts of digits. -/
theorem isDigitString_iff {s : Text} :
    isDigitString s = true ↔ s ≠ [] ∧ ∀ c ∈ s, c.isDigit = true := by
  simp [isDigitString]

/-- A number that fits an `int` is not changed by conversions. -/
theorem toInt32_clampLong {n : Int} (hlow : 0 ≤ n) (hhigh : n < 0x80000000) :
    toInt32 (clampLong n) = n := by
  have hclamp : clampLong n = n := by
    unfold clampLong
    omega
  rw [hclamp, toInt32, Int.bmod_def]
  omega

section Strtol

variable {s : Text} (hhead : ∀ c ∈ s.head?, c.isSpaceC = false)
include hhead

/-- A signed run of digits is read whole. -/
theorem strtol_of_digits (h : isDigitString (unsigned s) = true) : strtol s =
    (clampLong (if s.head? = some (ch '-') then -(decimalValue (unsigned s) : Int)
      else decimalValue (unsigned s)), []) := by
  obtain ⟨hne, hall⟩ := isDigitString_iff.mp h
  have htake : (unsigned s).takeWhile CodePoint.isDigit = unsigned s :=
    List.takeWhile_eq_self_iff.mpr hall
  have hdrop : (unsigned s).dropWhile CodePoint.isDigit = [] :=
    List.dropWhile_eq_nil_iff.mpr hall
  simp only [strtol, dropWhile_of_head? hhead]
  rw [← unsigned, htake, hdrop, if_neg hne]

/-- Of any other text something is left. -/
theorem strtol_of_not_digits (hne : s ≠ []) (h : isDigitString (unsigned s) = false) :
    (strtol s).2 ≠ [] := by
  simp only [strtol, dropWhile_of_head? hhead]
  rw [← unsigned]
  split
  · exact hne
  · rename_i htake
    intro hdrop
    rw [Bool.eq_false_iff, ne_eq, isDigitString_iff] at h
    apply h
    refine ⟨fun hnil => htake ?_, List.dropWhile_eq_nil_iff.mp hdrop⟩
    rw [hnil, List.takeWhile_nil]

/-- A number that fits an `int`, without a minus, is read as its digits. -/
theorem strtol_of_unsigned (hminus : s.head? ≠ some (ch '-'))
    (h : isDigitString (unsigned s) = true) (hsmall : decimalValue (unsigned s) < 0x80000000) :
    ((strtol s).2 = [] ∧ 0 ≤ (strtol s).1) ∧
      toInt32 (strtol s).1 = decimalValue (unsigned s) := by
  rw [strtol_of_digits hhead h, if_neg hminus]
  constructor
  · refine ⟨rfl, ?_⟩
    unfold clampLong
    omega
  · exact toInt32_clampLong (by omega) (by omega)

end Strtol

end Ewts
