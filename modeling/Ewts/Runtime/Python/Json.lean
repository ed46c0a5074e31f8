import Ewts.Core.Json.Writer

/-!
# Python `json`

`json.dumps` with `ensure_ascii`, for strings and flat objects, and `json.loads`.
What `dumps` spells is printable ASCII and denotes the text it was given, as far as
that text holds no surrogates.
-/

namespace Ewts.Python

open Json

/-- Lower-case hexadecimal digits. -/
def hexDigit (d : Fin 16) : CodePoint :=
  if h : d.val < 10 then ⟨0x30 + d.val, by omega⟩ else ⟨0x57 + d.val, by omega⟩

/-- `'\\u{0:04x}'.format(n)`. -/
def unicodeEscape (n : Nat) : Text :=
  [ch '\\', ch 'u', hexDigit (Fin.ofNat 16 (n / 4096)), hexDigit (Fin.ofNat 16 (n / 256)),
    hexDigit (Fin.ofNat 16 (n / 16)), hexDigit (Fin.ofNat 16 n)]

/-- `ESCAPE_DCT`: the characters with a two-character escape, by their letter. -/
def escapeDct : List (CodePoint × CodePoint) :=
  [(ch '\\', ch '\\'), (ch '"', ch '"'), (0x08, ch 'b'), (0x0C, ch 'f'), (0x0A, ch 'n'),
    (0x0D, ch 'r'), (0x09, ch 't')]

/-- The surrogates of a character outside the basic plane. -/
def highSurrogate (c : CodePoint) : CodePoint := ⟨0xD800 + (c.val - 0x10000) / 0x400, by omega⟩

/-- The second half of the pair. -/
def lowSurrogate (c : CodePoint) : CodePoint := ⟨0xDC00 + (c.val - 0x10000) % 0x400, by omega⟩

/-- One character as `ensure_ascii` spells it. -/
def dumpsChar (c : CodePoint) : Text :=
  match escapeDct.lookup c with
  | some e => [ch '\\', e]
  | none =>
    if 0x20 ≤ c.val ∧ c.val ≤ 0x7E then [c]
    else if c.val < 0x10000 then unicodeEscape c.val
    else unicodeEscape (highSurrogate c).val ++ unicodeEscape (lowSurrogate c).val

/-- `json.dumps` of a `str`. -/
def dumpsStr (s : Text) : Text := ch '"' :: s.flatMap dumpsChar ++ [ch '"']

/-- `json.dumps` of a `dict` from its keys and the texts of its values; the default
separators put a space behind the comma and the colon. -/
def dumpsDict (ms : List (Text × Text)) : Text := renderObject (text " ") ms

/-- What `json.loads` admits: the constants of IEEE 754 and integers of at most 4300 digits. -/
def loadsDialect : Dialect where
  constants := true
  accepts n := n.isFloat || (n.int.filter CodePoint.isDigit).length ≤ 4300

/-- `json.loads` of a `str`; a byte order mark is refused. Values may be nested to any depth. -/
def loads (s : Text) : Option Value :=
  if s.head? = some 0xFEFF then none else scanText loadsDialect s

/-- The text of an object has no byte order mark. -/
theorem loads_brace (s : Text) : loads (ch '{' :: s) = scanText loadsDialect (ch '{' :: s) := by
  rw [loads, List.head?_cons, if_neg (by decide)]

/-! ## Spelling -/

/-- The units that `dumpsChar` spells. -/
def dumpsUnits (c : CodePoint) : List StringUnit :=
  if (escapeDct.lookup c).isSome ∨ 0x20 ≤ c.val ∧ c.val ≤ 0x7E then [.plain c]
  else if c.val < 0x10000 then [.escaped c]
  else [.escaped (highSurrogate c), .escaped (lowSurrogate c)]

@[simp] theorem hexValue_hexDigit (d : Fin 16) : hexValue (hexDigit d) = some d := by
  revert d
  decide

/-- The four digits of an escape name its number. -/
theorem spelling_unicodeEscape {c : CodePoint} (h : c.val < 0x10000) :
    Spelling (unicodeEscape c.val) [.escaped c] := by
  apply Spelling.unicode
  simp only [hex4, hexValue_hexDigit, Fin.val_ofNat, Option.some.injEq, Fin.ext_iff]
  omega

theorem highSurrogate_val (c : CodePoint) :
    (highSurrogate c).val = 0xD800 + (c.val - 0x10000) / 0x400 := rfl

theorem lowSurrogate_val (c : CodePoint) :
    (lowSurrogate c).val = 0xDC00 + (c.val - 0x10000) % 0x400 := rfl

/-- A character beyond the basic plane is written as a high and a low surrogate. -/
theorem surrogates_bounds {c : CodePoint} (h : ¬c.val < 0x10000) :
    isHigh (highSurrogate c) = true ∧ isLow (lowSurrogate c) = true := by
  have hlt := c.isLt
  have hhigh : 0xD800 ≤ (highSurrogate c).val ∧ (highSurrogate c).val ≤ 0xDBFF := by
    rw [highSurrogate_val]
    omega
  have hlow : 0xDC00 ≤ (lowSurrogate c).val ∧ (lowSurrogate c).val ≤ 0xDFFF := by
    rw [lowSurrogate_val]
    omega
  simp only [isHigh, isLow, Bool.and_eq_true, decide_eq_true_eq]
  exact ⟨hhigh, hlow⟩

/-- The pair gives it back. -/
theorem joinSurrogates_pair {c : CodePoint} (h : ¬c.val < 0x10000) :
    joinSurrogates (highSurrogate c) (lowSurrogate c) = c := by
  have hlt := c.isLt
  apply Fin.ext
  simp only [joinSurrogates, highSurrogate_val, lowSurrogate_val]
  omega

/-- The table only holds escapes that the grammar reads back. -/
private theorem lookup_escapeDct {c e : CodePoint} (h : escapeDct.lookup c = some e) :
    shortEscapes.lookup e = some c := by
  obtain ⟨l₁, l₂, hl, _⟩ := List.lookup_eq_some_iff.mp h
  have hm : (c, e) ∈ escapeDct := by simp [hl]
  have htable : ∀ p ∈ escapeDct, shortEscapes.lookup p.2 = some p.1 := by decide
  exact htable _ hm

/-- A printable character without an escape may stand in a string token. -/
private theorem raw_of_lookup_none {c : CodePoint} (h : escapeDct.lookup c = none)
    (hc : 0x20 ≤ c.val) : c.isControl = false ∧ c ≠ ch '"' ∧ c ≠ ch '\\' := by
  refine ⟨decide_eq_false (by omega), ?_, ?_⟩ <;> rintro rfl <;> revert h <;> decide

/-- A written character spells its units. -/
theorem spelling_dumpsChar (c : CodePoint) : Spelling (dumpsChar c) (dumpsUnits c) := by
  unfold dumpsChar dumpsUnits
  cases he : escapeDct.lookup c with
  | some e =>
    simp only [Option.isSome_some, true_or, ite_true]
    exact .short (lookup_escapeDct he)
  | none =>
    simp only [Option.isSome_none, Bool.false_eq_true, false_or]
    split
    · rename_i hc
      obtain ⟨hctl, hq, hb⟩ := raw_of_lookup_none he hc.1
      exact .raw hctl hq hb
    · split
      · rename_i hc
        exact spelling_unicodeEscape hc
      · have hlow : (lowSurrogate c).val < 0x10000 := by
          rw [lowSurrogate_val]
          omega
        have hhigh : (highSurrogate c).val < 0x10000 := by
          have hlt := c.isLt
          rw [highSurrogate_val]
          omega
        exact .append (spelling_unicodeEscape hhigh) (spelling_unicodeEscape hlow)

/-- So does a written text. -/
theorem spelling_dumps (s : Text) : Spelling (s.flatMap dumpsChar) (s.flatMap dumpsUnits) :=
  .flatMap fun c _ => spelling_dumpsChar c

/-- Without surrogates the units denote the text they were made for. -/
theorem joinPairs_dumps {s : Text} (h : s.Scalar) : joinPairs (s.flatMap dumpsUnits) = s := by
  induction s with
  | nil => rfl
  | cons c s ih =>
    have hc : c.isSurrogate = false := h c (List.mem_cons_self ..)
    have ih := ih fun d hd => h d (List.mem_cons_of_mem _ hd)
    rw [List.flatMap_cons, dumpsUnits]
    split
    · rw [List.cons_append, joinPairs, List.nil_append, ih]
    · have hsur : ¬(0xD800 ≤ c.val ∧ c.val ≤ 0xDFFF) := by
        simpa [CodePoint.isSurrogate] using hc
      split
      · have hhigh : isHigh c = false := by
          simp only [isHigh, Bool.and_eq_false_iff, decide_eq_false_iff_not]
          omega
        rw [List.cons_append, List.nil_append, joinPairs_escaped hhigh, ih]
      · -- A character outside the basic plane is written as a surrogate pair.
        rename_i hc
        obtain ⟨hhigh, hlow⟩ := surrogates_bounds hc
        rw [List.cons_append, List.cons_append, List.nil_append, joinPairs_pair hhigh hlow, ih,
          joinSurrogates_pair hc]

/-- What a reader makes of the string token that `dumps` writes: surrogates that stand in a
pair come back as one character. -/
def decodedStr (s : Text) : Text := joinPairs (s.flatMap dumpsUnits)

/-- A text without surrogates comes back as it was. -/
theorem decodedStr_of_scalar {s : Text} (h : s.Scalar) : decodedStr s = s := joinPairs_dumps h

/-- The string token that `dumps` writes is a phrase of the grammar. -/
theorem reads_dumpsStr_decoded {ok : Numeral → Prop} (s t : Text) :
    Reads ok (.value (.str (decodedStr s))) (dumpsStr s ++ t) t := by
  have hb := (spelling_dumps s).body (StringBody.close t)
  rw [List.append_nil] at hb
  rw [dumpsStr, List.cons_append, List.cons_append, List.append_assoc]
  exact .str hb

/-- Without surrogates the reader gets back the text. -/
theorem reads_dumpsStr {ok : Numeral → Prop} {s : Text} (h : s.Scalar) (t : Text) :
    Reads ok (.value (.str s)) (dumpsStr s ++ t) t := by
  have hr : Reads ok _ _ t := reads_dumpsStr_decoded s t
  rwa [decodedStr_of_scalar h] at hr

/-! ## The characters that are written -/

/-- Hexadecimal digits are written with small letters. -/
private theorem hexDigit_range (d : Fin 16) :
    0x30 ≤ (hexDigit d).val ∧ (hexDigit d).val ≤ 0x39 ∨
      0x61 ≤ (hexDigit d).val ∧ (hexDigit d).val ≤ 0x66 := by
  revert d
  decide

/-- Escapes consist of the backslash, lower-case letters, digits and the quotation mark. -/
theorem mem_dumpsChar {c d : CodePoint} (h : d ∈ dumpsChar c) :
    d = c ∧ dumpsChar c = [c] ∧ 0x20 ≤ c.val ∧ c.val ≤ 0x7E ∨
      d = ch '\\' ∨ d = ch '"' ∨ 0x30 ≤ d.val ∧ d.val ≤ 0x39 ∨ 0x61 ≤ d.val ∧ d.val ≤ 0x7A := by
  have hunicode : ∀ n, d ∈ unicodeEscape n → d = ch '\\' ∨ d = ch '"' ∨
      0x30 ≤ d.val ∧ d.val ≤ 0x39 ∨ 0x61 ≤ d.val ∧ d.val ≤ 0x7A := by
    intro n hd
    simp only [unicodeEscape, List.mem_cons, List.not_mem_nil, or_false] at hd
    rcases hd with rfl | rfl | rfl | rfl | rfl | rfl
    · exact Or.inl rfl
    · exact Or.inr (Or.inr (Or.inr (by decide)))
    all_goals
      have hr := hexDigit_range (Fin.ofNat 16 (n / 4096))
      have hr' := hexDigit_range (Fin.ofNat 16 (n / 256))
      have hr'' := hexDigit_range (Fin.ofNat 16 (n / 16))
      have hr''' := hexDigit_range (Fin.ofNat 16 n)
      omega
  unfold dumpsChar at h ⊢
  cases he : escapeDct.lookup c with
  | some e =>
    simp only [he, List.mem_cons, List.not_mem_nil, or_false] at h
    obtain ⟨l₁, l₂, hl, _⟩ := List.lookup_eq_some_iff.mp he
    have hm : (c, e) ∈ escapeDct := by simp [hl]
    have htable : ∀ p ∈ escapeDct, p.2 = ch '\\' ∨ p.2 = ch '"' ∨
        0x61 ≤ p.2.val ∧ p.2.val ≤ 0x7A := by decide
    rcases h with rfl | rfl
    · exact Or.inr (Or.inl rfl)
    · rcases htable _ hm with hd | hd | hd
      · exact Or.inr (Or.inl hd)
      · exact Or.inr (Or.inr (Or.inl hd))
      · exact Or.inr (Or.inr (Or.inr (Or.inr hd)))
  | none =>
    simp only [he] at h
    split at h
    · rename_i hc
      simp only [hc, and_self, ite_true, and_true]
      exact Or.inl (List.mem_singleton.mp h)
    · split at h
      · exact Or.inr (hunicode _ h)
      · rcases List.mem_append.mp h with h | h
        · exact Or.inr (hunicode _ h)
        · exact Or.inr (hunicode _ h)

/-- `ensure_ascii` writes printable ASCII only. -/
theorem dumpsChar_printable {c d : CodePoint} (h : d ∈ dumpsChar c) :
    0x20 ≤ d.val ∧ d.val ≤ 0x7E := by
  rcases mem_dumpsChar h with ⟨rfl, _, hd⟩ | rfl | rfl | hd | hd
  · exact hd
  · decide
  · decide
  · omega
  · omega

end Ewts.Python
