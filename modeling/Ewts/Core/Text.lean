import Mathlib.Data.List.Infix
import Mathlib.Tactic.Common

/-!
# Code-point texts

One type of text serves every language of the repository: a list of Unicode code
points, surrogates included, because a Python `str` may hold them. The functions
here only look at ASCII characters, so on UTF-8 bytes they do the same as on the
code points that those bytes encode.
-/

namespace Ewts

/-- A Unicode code point, lone surrogates included. -/
abbrev CodePoint := Fin 0x110000

/-- A text, character by character. -/
abbrev Text := List CodePoint

/-- Numerals for code points. -/
instance codePoint_neZero : @NeZero Nat Zero.ofOfNat0 0x110000 := ⟨by decide⟩

/-- Equality tests of texts. -/
instance text_lawfulBEq : LawfulBEq Text := inferInstance

/-- The code point of a character literal. -/
def ch (c : Char) : CodePoint :=
  ⟨c.toNat, by
    have hv := c.valid
    unfold Char.toNat
    rcases hv with h | h <;> omega⟩

/-- The text of a string literal. -/
def text (s : String) : Text := s.toList.map ch

@[simp] theorem ch_val (c : Char) : (ch c).val = c.toNat := rfl

/-- Characters differ by their code points. -/
theorem ch_injective : Function.Injective ch := by
  intro a b h
  have hv : a.toNat = b.toNat := by simpa only [ch, Fin.mk.injEq] using h
  exact Char.toNat_inj.mp hv

@[simp] theorem ch_inj {a b : Char} : ch a = ch b ↔ a = b := ch_injective.eq_iff

/-- Surrogate code points encode no character. -/
def CodePoint.isSurrogate (c : CodePoint) : Bool := 0xD800 ≤ c.val && c.val ≤ 0xDFFF

/-- A text of Unicode scalar values: the texts that UTF-8 can carry. -/
def Text.Scalar (t : Text) : Prop := ∀ c ∈ t, c.isSurrogate = false

/-- Decide a statement about the members of a list by going through the list. The default
instance would go through all code points. -/
instance (priority := 2000) decidableForallMem {α : Type} (l : List α) (p : α → Prop)
    [DecidablePred p] : Decidable (∀ x ∈ l, p x) :=
  List.decidableBAll p l

instance (t : Text) : Decidable t.Scalar := inferInstanceAs (Decidable (∀ c ∈ t, _))

/-- The C0 controls, the only characters a JSON string may not hold raw beside
the quotation mark and the backslash. -/
def CodePoint.isControl (c : CodePoint) : Bool := c.val < 0x20

/-- `0` to `9`. -/
def CodePoint.isDigit (c : CodePoint) : Bool := 0x30 ≤ c.val && c.val ≤ 0x39

/-- The value of a decimal digit. -/
def CodePoint.digitValue (c : CodePoint) : Nat := c.val - 0x30

/-- Value of a run of decimal digits, most significant first. -/
def decimalValue (t : Text) : Nat := t.foldl (fun n c => 10 * n + c.digitValue) 0

/-- Decimal text of a natural number, as `std::to_string` and `str` print it. -/
def decimal (n : Nat) : Text := (Nat.toDigits 10 n).map ch

/-- Decimal texts are made of digits. -/
theorem isDigit_of_mem_decimal {n : Nat} {c : CodePoint} (h : c ∈ decimal n) :
    c.isDigit = true := by
  obtain ⟨d, hd, rfl⟩ := List.mem_map.mp h
  have hdigit := Nat.isDigit_of_mem_toDigits (by decide) (by decide) hd
  simp only [Char.isDigit, Bool.and_eq_true, decide_eq_true_eq, ge_iff_le, UInt32.le_iff_toNat_le]
    at hdigit
  rw [CodePoint.isDigit, Bool.and_eq_true]
  exact ⟨decide_eq_true hdigit.1, decide_eq_true hdigit.2⟩

/-- Every number has a digit. -/
theorem decimal_ne_nil (n : Nat) : decimal n ≠ [] := by
  rw [decimal, ne_eq, List.map_eq_nil_iff]
  exact Nat.toDigits_ne_nil

/-- A number is the value of its digits. -/
@[simp] theorem decimalValue_decimal (n : Nat) : decimalValue (decimal n) = n := by
  rw [decimalValue, decimal, List.foldl_map]
  exact Nat.ofDigitChars_ten_toDigits

/-- Numbers differ by their digits. -/
theorem decimal_injective : Function.Injective decimal :=
  Function.LeftInverse.injective decimalValue_decimal

/-- ASCII upper-casing of one character: `toupper` in the C locale. -/
def CodePoint.toUpper (c : CodePoint) : CodePoint :=
  if 0x61 ≤ c.val ∧ c.val ≤ 0x7A then ⟨c.val - 0x20, by omega⟩ else c

/-- ASCII lower-casing of one character: `tolower` in the C locale. -/
def CodePoint.toLower (c : CodePoint) : CodePoint :=
  if h : 0x41 ≤ c.val ∧ c.val ≤ 0x5A then ⟨c.val + 0x20, by omega⟩ else c

/-- `isspace` in the C locale: space, tab, newline, vertical tab, form feed, return. -/
def CodePoint.isSpaceC (c : CodePoint) : Bool := c.val = 0x20 || (0x09 ≤ c.val && c.val ≤ 0x0D)

@[simp] theorem CodePoint.toUpper_toUpper (c : CodePoint) : c.toUpper.toUpper = c.toUpper := by
  unfold CodePoint.toUpper
  split
  · rename_i h
    have hn : ¬(0x61 ≤ c.val - 0x20 ∧ c.val - 0x20 ≤ 0x7A) := by omega
    simp only [hn, ite_false]
  · rfl

/-- Upper case moves the small letters of ASCII. -/
theorem CodePoint.toUpper_val (c : CodePoint) : c.toUpper.val =
    if 0x61 ≤ c.val ∧ c.val ≤ 0x7A then c.val - 0x20 else c.val := by
  unfold CodePoint.toUpper
  split <;> rfl

/-- Lower case moves its capital letters. -/
theorem CodePoint.toLower_val (c : CodePoint) : c.toLower.val =
    if 0x41 ≤ c.val ∧ c.val ≤ 0x5A then c.val + 0x20 else c.val := by
  unfold CodePoint.toLower
  split <;> rfl

@[simp] theorem CodePoint.toUpper_toLower (c : CodePoint) : c.toLower.toUpper = c.toUpper := by
  apply Fin.ext
  rw [CodePoint.toUpper_val, CodePoint.toUpper_val, CodePoint.toLower_val]
  grind

@[simp] theorem CodePoint.toLower_toUpper (c : CodePoint) : c.toUpper.toLower = c.toLower := by
  apply Fin.ext
  rw [CodePoint.toLower_val, CodePoint.toLower_val, CodePoint.toUpper_val]
  grind

/-- Texts are equal in lower case exactly when they are equal in upper case. -/
theorem map_toLower_eq_iff {s t : Text} :
    s.map CodePoint.toLower = t.map CodePoint.toLower ↔
      s.map CodePoint.toUpper = t.map CodePoint.toUpper := by
  constructor
  · intro h
    simpa [Function.comp_def] using congrArg (List.map CodePoint.toUpper) h
  · intro h
    simpa [Function.comp_def] using congrArg (List.map CodePoint.toLower) h

/-- Lower-casing separates characters that are not lower-case letters. -/
theorem CodePoint.toLower_inj {a b : CodePoint} (ha : ¬(0x61 ≤ a.val ∧ a.val ≤ 0x7A))
    (hb : ¬(0x61 ≤ b.val ∧ b.val ≤ 0x7A)) (h : a.toLower = b.toLower) : a = b := by
  have hv : a.toLower.val = b.toLower.val := congrArg Fin.val h
  rw [CodePoint.toLower_val, CodePoint.toLower_val] at hv
  apply Fin.ext
  split at hv <;> split at hv <;> omega

/-- Digit runs never read as anything but a natural number of the same digits. -/
theorem decimalValue_append_singleton (t : Text) (c : CodePoint) :
    decimalValue (t ++ [c]) = 10 * decimalValue t + c.digitValue := by
  simp only [decimalValue, List.foldl_append, List.foldl_cons, List.foldl_nil]

/-- A prefix all of whose characters pass is exactly what `takeWhile` takes, when
the next character fails. -/
theorem takeWhile_append_stop {α : Type*} {p : α → Bool} {a b : List α}
    (ha : ∀ x ∈ a, p x = true) (hb : ∀ x ∈ b.head?, p x = false) :
    (a ++ b).takeWhile p = a := by
  rw [List.takeWhile_append_of_pos ha]
  cases b with
  | nil => simp only [List.takeWhile_nil, List.append_nil]
  | cons x b => simp only [List.takeWhile_cons, hb x rfl, Bool.false_eq_true, ite_false,
      List.append_nil]

/-- The companion of `takeWhile_append_stop`: what is left is the second part. -/
theorem dropWhile_append_stop {α : Type*} {p : α → Bool} {a b : List α}
    (ha : ∀ x ∈ a, p x = true) (hb : ∀ x ∈ b.head?, p x = false) :
    (a ++ b).dropWhile p = b := by
  rw [List.dropWhile_append_of_pos ha]
  cases b with
  | nil => rfl
  | cons x b => simp only [List.dropWhile_cons, hb x rfl, Bool.false_eq_true, ite_false]

/-- A number ends where its digits end. -/
theorem decimal_append_inj {m n : Nat} {a b : Text} (ha : ∀ c ∈ a.head?, c.isDigit = false)
    (hb : ∀ c ∈ b.head?, c.isDigit = false) (h : decimal m ++ a = decimal n ++ b) :
    m = n ∧ a = b := by
  have hdigits := congrArg (List.takeWhile CodePoint.isDigit) h
  rw [takeWhile_append_stop (fun _ => isDigit_of_mem_decimal) ha,
    takeWhile_append_stop (fun _ => isDigit_of_mem_decimal) hb] at hdigits
  have hmn : m = n := decimal_injective hdigits
  subst hmn
  exact ⟨rfl, List.append_cancel_left h⟩

end Ewts
