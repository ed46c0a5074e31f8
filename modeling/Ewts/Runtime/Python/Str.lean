import Ewts.Core.Text
import Mathlib.Data.List.DropRight

/-!
# Python `str`

The methods of `str` that the Python runtime calls, with the documented character
sets. The case mapping and the digit property of the Unicode database come with
the laws that the runtime relies on.
-/

namespace Ewts.Python

/-- The characters of `str.isspace`, at which `str.split()` cuts. -/
def isSpace (c : CodePoint) : Bool :=
  (0x09 ≤ c.val && c.val ≤ 0x0D) || (0x1C ≤ c.val && c.val ≤ 0x20) || c.val = 0x85 ||
    c.val = 0xA0 || c.val = 0x1680 || (0x2000 ≤ c.val && c.val ≤ 0x200A) || c.val = 0x2028 ||
    c.val = 0x2029 || c.val = 0x202F || c.val = 0x205F || c.val = 0x3000

/-- The line boundaries of `str.splitlines`. -/
def isLineBreak (c : CodePoint) : Bool :=
  (0x0A ≤ c.val && c.val ≤ 0x0D) || (0x1C ≤ c.val && c.val ≤ 0x1E) || c.val = 0x85 ||
    c.val = 0x2028 || c.val = 0x2029

/-- `str.splitlines`, behind a carriage return when `afterReturn` is set: there a
newline belongs to the boundary already made. -/
def splitlinesFrom (afterReturn : Bool) : Text → List Text
  | [] => []
  | c :: s =>
    if afterReturn && c.val = 0x0A then splitlinesFrom false s
    else if isLineBreak c then [] :: splitlinesFrom (c.val = 0x0D) s
    else match splitlinesFrom false s with
      | [] => [[c]]
      | l :: ls => (c :: l) :: ls

/-- `str.splitlines()`. -/
def splitlines (s : Text) : List Text := splitlinesFrom false s

/-- `str.split(None, maxsplit)`: the last part keeps its trailing whitespace. -/
def splitWhitespace (maxsplit : Nat) (s : Text) : List Text :=
  if s.dropWhile isSpace = [] then []
  else match maxsplit with
    | 0 => [s.dropWhile isSpace]
    | n + 1 => (s.dropWhile isSpace).takeWhile (!isSpace ·) ::
        splitWhitespace n ((s.dropWhile isSpace).dropWhile (!isSpace ·))

/-- `str.strip()`. -/
def strip (s : Text) : Text := (s.dropWhile isSpace).rdropWhile isSpace

/-- The parts of the Unicode database behind `str.upper`, `str.lower`, `str.isdigit` and
`int`. -/
structure Unicode where
  /-- Full upper-case mapping of one character. -/
  upperChar : CodePoint → Text
  /-- `str.lower`, which looks at the context of a final sigma. -/
  lower : Text → Text
  /-- `str.isdigit` of one character. -/
  isDigit : CodePoint → Bool
  /-- The value that `int` gives a decimal digit. -/
  decimal : CodePoint → Option Nat
  upper_ascii : ∀ c : CodePoint, c.val < 0x80 → upperChar c = [c.toUpper]
  lower_ascii : ∀ s : Text, (∀ c ∈ s, c.val < 0x80) → lower s = s.map CodePoint.toLower
  isDigit_ascii : ∀ c : CodePoint, c.val < 0x80 → isDigit c = c.isDigit
  decimal_ascii : ∀ c : CodePoint, c.val < 0x80 →
    decimal c = if c.isDigit then some c.digitValue else none
  /-- Upper-cased text is a fixed point of the mapping. -/
  upper_upper : ∀ c, ∀ d ∈ upperChar c, upperChar d = [d]

namespace Unicode

variable (u : Unicode)

/-- `str.upper()`. -/
def upper (s : Text) : Text := s.flatMap u.upperChar

/-- `str.isdigit()`: not empty, and digits only. -/
def isDigits (s : Text) : Bool := s ≠ [] && s.all u.isDigit

/-- `int(s)` for a text of digits: superscripts have no decimal value, and more than
4300 digits are refused. -/
def toInt (s : Text) : Option Nat :=
  if s.length ≤ 4300 then
    s.foldl (fun n c => n.bind fun n => (u.decimal c).map fun d => 10 * n + d) (some 0)
  else none

/-- `int(s)`: white space, a sign, and digits that single underscores may separate. -/
def int (s : Text) : Option Int :=
  let digits (t : Text) : Option Nat :=
    if (t.splitOn (ch '_')).any (· = []) then none else u.toInt (t.splitOn (ch '_')).flatten
  match strip s with
  | [] => none
  | c :: t =>
    if c = ch '-' then (digits t).map fun n => -(n : Int)
    else if c = ch '+' then (digits t).map Int.ofNat
    else (digits (c :: t)).map Int.ofNat

@[simp] theorem upper_upper_text (s : Text) : u.upper (u.upper s) = u.upper s := by
  have hfix : ∀ d ∈ s.flatMap u.upperChar, u.upperChar d = [d] := by
    intro d hd
    obtain ⟨c, _, hd⟩ := List.mem_flatMap.mp hd
    exact u.upper_upper c d hd
  unfold upper
  rw [List.flatMap_congr hfix]
  exact List.flatMap_singleton' _

section Ascii

variable {s : Text} (h : ∀ c ∈ s, c.val < 0x80)
include h

/-- On ASCII the database is the table of ASCII. -/
theorem upper_of_ascii : u.upper s = s.map CodePoint.toUpper := by
  unfold upper
  calc s.flatMap u.upperChar = s.flatMap fun c => [c.toUpper] :=
        List.flatMap_congr fun c hc => u.upper_ascii c (h c hc)
    _ = s.map CodePoint.toUpper := List.map_eq_flatMap.symm

/-- So it is for digits. -/
theorem isDigits_of_ascii : u.isDigits s = (s ≠ [] && s.all CodePoint.isDigit) := by
  have hall : s.all u.isDigit = s.all CodePoint.isDigit := by
    rw [Bool.eq_iff_iff, List.all_eq_true, List.all_eq_true]
    exact forall₂_congr fun c hc => by rw [u.isDigit_ascii c (h c hc)]
  rw [isDigits, hall]

end Ascii

/-- A short run of ASCII digits has its decimal value. -/
theorem toInt_of_digits {s : Text} (hlen : s.length ≤ 4300) (h : ∀ c ∈ s, c.isDigit = true) :
    u.toInt s = some (decimalValue s) := by
  have hfold : ∀ n, s.foldl (fun n c => n.bind fun n => (u.decimal c).map fun d => 10 * n + d)
      (some n) = some (s.foldl (fun n c => 10 * n + c.digitValue) n) := by
    clear hlen
    induction s with
    | nil => exact fun _ => rfl
    | cons c s ih =>
      intro n
      have hc : c.isDigit = true := h c (List.mem_cons_self ..)
      have hlt : c.val < 0x80 := by
        simp only [CodePoint.isDigit, Bool.and_eq_true, decide_eq_true_eq] at hc
        omega
      rw [List.foldl_cons, List.foldl_cons, Option.bind_some, u.decimal_ascii c hlt, if_pos hc]
      exact ih (fun d hd => h d (List.mem_cons_of_mem c hd)) _
  rw [toInt, if_pos hlen]
  exact hfold 0

/-- The database restricted to ASCII. -/
def ascii : Unicode where
  upperChar c := [c.toUpper]
  lower s := s.map CodePoint.toLower
  isDigit := CodePoint.isDigit
  decimal c := if c.isDigit then some c.digitValue else none
  upper_ascii _ _ := rfl
  lower_ascii _ _ := rfl
  isDigit_ascii _ _ := rfl
  decimal_ascii _ _ := rfl
  upper_upper c d hd := by
    rw [List.mem_singleton.mp hd, CodePoint.toUpper_toUpper]

end Unicode

/-- A text without line boundaries is one line. -/
theorem splitlines_of_unbroken {s : Text} (hne : s ≠ []) (h : ∀ c ∈ s, isLineBreak c = false) :
    splitlines s = [s] := by
  unfold splitlines
  induction s with
  | nil => exact absurd rfl hne
  | cons c s ih =>
    have hc := h c (List.mem_cons_self ..)
    have hs : ∀ d ∈ s, isLineBreak d = false := fun d hd => h d (List.mem_cons_of_mem _ hd)
    rw [splitlinesFrom.eq_def]
    simp only [Bool.false_and, Bool.false_eq_true, ite_false, hc]
    cases s with
    | nil => rfl
    | cons d s => rw [ih (by simp) hs]

/-- Graphic characters of ASCII are no white space. -/
theorem isSpace_of_graphic {c : CodePoint} (h : 0x21 ≤ c.val ∧ c.val ≤ 0x7E) :
    isSpace c = false := by
  simp only [isSpace, Bool.or_eq_false_iff, Bool.and_eq_false_iff, decide_eq_false_iff_not]
  omega

/-- Upper case keeps white space. -/
theorem isSpace_toUpper (c : CodePoint) : isSpace c.toUpper = isSpace c := by
  simp only [isSpace, CodePoint.toUpper_val]
  split
  · grind
  · rfl

/-- One word, its separator, and what is left. -/
theorem splitWhitespace_word {n : Nat} {w s : Text} {b : CodePoint} (hne : w ≠ [])
    (hw : ∀ c ∈ w, isSpace c = false) (hb : isSpace b = true) :
    splitWhitespace (n + 1) (w ++ b :: s) = w :: splitWhitespace n (b :: s) := by
  have hdrop : (w ++ b :: s).dropWhile isSpace = w ++ b :: s := by
    obtain ⟨c, r, rfl⟩ := List.exists_cons_of_ne_nil hne
    rw [List.cons_append, List.dropWhile_cons, hw c (List.mem_cons_self ..)]
    simp only [Bool.false_eq_true, ite_false]
  have hw' : ∀ c ∈ w, (!isSpace c) = true := fun c hc => by rw [hw c hc]; rfl
  have hb' : ∀ c ∈ (b :: s).head?, (!isSpace c) = false := by
    rintro c hc
    cases hc
    rw [hb]
    rfl
  rw [splitWhitespace.eq_def, hdrop, if_neg (by simp)]
  simp only [takeWhile_append_stop hw' hb', dropWhile_append_stop hw' hb']

/-- Separators in front are skipped. -/
theorem splitWhitespace_skip {n : Nat} {b s : Text} (hb : ∀ c ∈ b, isSpace c = true) :
    splitWhitespace n (b ++ s) = splitWhitespace n s := by
  rw [splitWhitespace.eq_def, splitWhitespace.eq_def n s, List.dropWhile_append_of_pos hb]

/-- What is left behind the last split. -/
theorem splitWhitespace_rest {c : CodePoint} {s : Text} (hc : isSpace c = false) :
    splitWhitespace 0 (c :: s) = [c :: s] := by
  rw [splitWhitespace.eq_def, List.dropWhile_cons, hc]
  simp

/-- One field, the gap behind it, and what is left. -/
theorem splitWhitespace_field {n : Nat} {w gap s : Text} (hne : w ≠ [])
    (hw : ∀ c ∈ w, isSpace c = false) (hgap : gap ≠ []) (hblank : ∀ c ∈ gap, isSpace c = true) :
    splitWhitespace (n + 1) (w ++ (gap ++ s)) = w :: splitWhitespace n s := by
  obtain ⟨b, g, rfl⟩ := List.exists_cons_of_ne_nil hgap
  have hskip := splitWhitespace_skip (n := n) (s := s) hblank
  rw [List.cons_append] at hskip ⊢
  rw [splitWhitespace_word hne hw (hblank b (List.mem_cons_self ..)), hskip]

end Ewts.Python
