import Ewts.Core.CString

/-!
# String literals of C

A literal ends at its first quote that is not escaped, and never holds a line break. So it is
longer than what it stands for when that holds a quote, a backslash or a line break, and a
text that was written between quotes as it is is not read back then.
-/

namespace Ewts

/-- `"`. -/
def quote : CodePoint := ch '"'

/-- The backslash. -/
def backslash : CodePoint := ch '\\'

/-- The line breaks of a source file. -/
def isBreak (c : CodePoint) : Bool := c.val = 0x0A || c.val = 0x0D

/-- The character of a simple escape sequence. Numeric escapes and universal character names
are not read. -/
def simpleEscape (c : CodePoint) : Option CodePoint :=
  ((text "\"'?\\abfnrtv").zip [0x22, 0x27, 0x3F, 0x5C, 0x07, 0x08, 0x0C, 0x0A, 0x0D, 0x09, 0x0B]
    ).lookup c

/-- Read a literal behind its opening quote: its characters, and what follows it. -/
def readLiteral : Text → Option (Text × Text)
  | [] => none
  | c :: s =>
    if c = quote then some ([], s)
    else if isBreak c then none
    else if c = backslash then
      match s with
      | [] => none
      | d :: s => (simpleEscape d).bind fun v => (readLiteral s).map fun r => (v :: r.1, r.2)
    else (readLiteral s).map fun r => (c :: r.1, r.2)

/-- The characters that a literal cannot hold as they are. -/
def needsEscape (c : CodePoint) : Bool := c = quote || c = backslash || isBreak c

/-- The least length of a character in a literal. -/
def literalLength (s : Text) : Nat := s.length + s.countP needsEscape

/-- An escaped character takes two. -/
theorem literalLength_cons (c : CodePoint) (s : Text) :
    literalLength (c :: s) = (if needsEscape c then 2 else 1) + literalLength s := by
  unfold literalLength
  rw [List.countP_cons, List.length_cons]
  split <;> omega

/-- A literal is as long as its characters need. -/
theorem literalLength_le {s v rest : Text} (h : readLiteral s = some (v, rest)) :
    literalLength v + 1 + rest.length ≤ s.length := by
  fun_induction readLiteral s generalizing v rest with
  | case1 => cases h
  | case2 s =>
    cases h
    simp [literalLength, Nat.add_comm]
  | case3 => cases h
  | case4 => cases h
  | case5 d s hquote hbreak ih =>
    simp only [Option.bind_eq_some_iff, Option.map_eq_some_iff, Prod.mk.injEq] at h
    obtain ⟨e, _, r, hr, rfl, rfl⟩ := h
    have hle := ih hr
    rw [literalLength_cons]
    split <;> simp only [List.length_cons] <;> omega
  | case6 c s hquote hbreak hback ih =>
    simp only [Option.map_eq_some_iff, Prod.mk.injEq] at h
    obtain ⟨r, hr, rfl, rfl⟩ := h
    have hle := ih hr
    have hplain : needsEscape c = false := by simp [needsEscape, hquote, hbreak, hback]
    rw [literalLength_cons, hplain, if_neg Bool.false_ne_true, List.length_cons]
    omega

/-- A spelling of one character in a literal. -/
def Spells (e : Text) (c : CodePoint) : Prop :=
  (e = [c] ∧ needsEscape c = false) ∨ ∃ d, e = [backslash, d] ∧ simpleEscape d = some c

/-- A text that is spelled character by character is read back. -/
theorem readLiteral_flatMap {spell : CodePoint → Text} {t : Text}
    (h : ∀ c ∈ t, Spells (spell c) c) (rest : Text) :
    readLiteral (t.flatMap spell ++ quote :: rest) = some (t, rest) := by
  induction t with
  | nil =>
    rw [List.flatMap_nil, List.nil_append, readLiteral.eq_def]
    exact if_pos rfl
  | cons c t ih =>
    have htail := ih fun d hd => h d (List.mem_cons_of_mem c hd)
    rw [List.flatMap_cons, List.append_assoc]
    rcases h c (List.mem_cons_self ..) with ⟨hspell, hplain⟩ | ⟨d, hspell, hescape⟩
    · simp only [needsEscape, Bool.or_eq_false_iff, decide_eq_false_iff_not] at hplain
      obtain ⟨⟨hquote, hback⟩, hbreak⟩ := hplain
      rw [hspell, List.singleton_append, readLiteral.eq_def]
      simp [hquote, hback, hbreak, htail]
    · have hquote : backslash ≠ quote := by decide
      have hbreak : isBreak backslash = false := by decide
      rw [hspell, List.cons_append, List.singleton_append, readLiteral.eq_def]
      simp [hquote, hbreak, hescape, htail]

end Ewts
