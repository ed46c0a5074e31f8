import Ewts.Core.Text

/-!
# The RFC 8259 grammar

Every production relates an input to what is left of it behind the phrase. The
grammar is parameterized by the numerals it admits, because a reader may bound
the number of digits it converts; RFC 8259 itself admits all of them.
-/

namespace Ewts.Json

/-- A number token, cut at its fraction and its exponent. -/
structure Numeral where
  /-- Optional minus sign and integer digits. -/
  int : Text
  /-- Empty, or the point and its digits. -/
  frac : Text
  /-- Empty, or the exponent letter, sign and digits. -/
  exp : Text
  deriving DecidableEq, Repr

/-- The characters of the token. -/
def Numeral.text (n : Numeral) : Text := n.int ++ n.frac ++ n.exp

/-- Readers convert a numeral without fraction and exponent to an integer. -/
def Numeral.isFloat (n : Numeral) : Bool := n.frac ≠ [] || n.exp ≠ []

/-- A nonempty run of decimal digits. -/
def IsDigits (t : Text) : Prop := t ≠ [] ∧ ∀ c ∈ t, c.isDigit = true

/-- `int = zero / ( digit1-9 *DIGIT )`. -/
def IsUnsignedInt (t : Text) : Prop :=
  t = [ch '0'] ∨ ∃ c ds, t = c :: ds ∧ c ≠ ch '0' ∧ c.isDigit = true ∧ ∀ d ∈ ds, d.isDigit = true

/-- `number = [ minus ] int [ frac ] [ exp ]`. -/
structure Numeral.WellFormed (n : Numeral) : Prop where
  /-- An optional minus sign before the integer part. -/
  int : ∃ sign body, n.int = sign ++ body ∧ (sign = [] ∨ sign = [ch '-']) ∧ IsUnsignedInt body
  /-- `frac = decimal-point 1*DIGIT`. -/
  frac : n.frac = [] ∨ ∃ ds, n.frac = ch '.' :: ds ∧ IsDigits ds
  /-- `exp = e [ minus / plus ] 1*DIGIT`. -/
  exp : n.exp = [] ∨ ∃ e sign ds, n.exp = e :: (sign ++ ds) ∧ (e = ch 'e' ∨ e = ch 'E') ∧
    (sign = [] ∨ sign = [ch '+'] ∨ sign = [ch '-']) ∧ IsDigits ds

/-- JSON values. Members keep their order and their duplicates. -/
inductive Value where
  | null
  | bool (b : Bool)
  | num (n : Numeral)
  /-- `NaN` and the infinities, which no rule of the grammar derives. -/
  | constant (name : Text)
  | str (s : Text)
  | arr (vs : List Value)
  | obj (ms : List (Text × Value))

/-- `ws = *( space / tab / newline / return )`. -/
def isWs (c : CodePoint) : Bool :=
  c.val = 0x20 || c.val = 0x09 || c.val = 0x0A || c.val = 0x0D

/-- `s` is whitespace followed by `t`. -/
def Ws (s t : Text) : Prop := ∃ w, (∀ c ∈ w, isWs c = true) ∧ s = w ++ t

/-- The two-character escapes: the letter behind the backslash and its meaning. -/
def shortEscapes : List (CodePoint × CodePoint) :=
  [(ch '"', ch '"'), (ch '\\', ch '\\'), (ch '/', ch '/'), (ch 'b', 0x08), (ch 'f', 0x0C),
    (ch 'n', 0x0A), (ch 'r', 0x0D), (ch 't', 0x09)]

/-- Value of a hexadecimal digit, in either letter case. -/
def hexValue (c : CodePoint) : Option (Fin 16) :=
  if h : 0x30 ≤ c.val ∧ c.val ≤ 0x39 then some ⟨c.val - 0x30, by omega⟩
  else if h : 0x41 ≤ c.val ∧ c.val ≤ 0x46 then some ⟨c.val - 0x37, by omega⟩
  else if h : 0x61 ≤ c.val ∧ c.val ≤ 0x66 then some ⟨c.val - 0x57, by omega⟩
  else none

/-- The code point that four hexadecimal digits name. -/
def hex4 (a b c d : CodePoint) : Option CodePoint :=
  match hexValue a, hexValue b, hexValue c, hexValue d with
  | some a, some b, some c, some d =>
    some ⟨((a.val * 16 + b.val) * 16 + c.val) * 16 + d.val, by omega⟩
  | _, _, _, _ => none

/-- High surrogates. -/
def isHigh (c : CodePoint) : Bool := 0xD800 ≤ c.val && c.val ≤ 0xDBFF

/-- Low surrogates. -/
def isLow (c : CodePoint) : Bool := 0xDC00 ≤ c.val && c.val ≤ 0xDFFF

/-- The code point of a surrogate pair. -/
def joinSurrogates (hi lo : CodePoint) : CodePoint :=
  ⟨0x10000 + hi.val % 0x400 * 0x400 + lo.val % 0x400, by omega⟩

/-- One character of a string token: raw or by a short escape, or by `\uXXXX`. -/
inductive StringUnit where
  | plain (c : CodePoint)
  | escaped (c : CodePoint)
  deriving DecidableEq, Repr

/-- Adjacent `\u` escapes of a high and a low surrogate name one code point. -/
def joinPairs : List StringUnit → Text
  | [] => []
  | .plain c :: us => c :: joinPairs us
  | .escaped hi :: .escaped lo :: us =>
    if isHigh hi ∧ isLow lo then joinSurrogates hi lo :: joinPairs us
    else hi :: joinPairs (.escaped lo :: us)
  | .escaped c :: us => c :: joinPairs us

/-- The characters of a string token up to and with its closing quotation mark. -/
inductive StringBody : Text → List StringUnit → Text → Prop where
  | close (t : Text) : StringBody (ch '"' :: t) [] t
  | raw {c : CodePoint} {s t : Text} {us : List StringUnit} (hc : c.isControl = false)
      (hq : c ≠ ch '"') (hb : c ≠ ch '\\') (h : StringBody s us t) :
      StringBody (c :: s) (.plain c :: us) t
  | short {e c : CodePoint} {s t : Text} {us : List StringUnit}
      (he : shortEscapes.lookup e = some c) (h : StringBody s us t) :
      StringBody (ch '\\' :: e :: s) (.plain c :: us) t
  | unicode {a b c d u : CodePoint} {s t : Text} {us : List StringUnit}
      (hu : hex4 a b c d = some u) (h : StringBody s us t) :
      StringBody (ch '\\' :: ch 'u' :: a :: b :: c :: d :: s) (.escaped u :: us) t

/-- The phrases with a rule of their own. -/
inductive Phrase where
  | value (v : Value)
  /-- The elements of a nonempty array, without its brackets. -/
  | elements (vs : List Value)
  /-- The members of a nonempty object, without its braces. -/
  | members (ms : List (Text × Value))

/-- The grammar: `Reads ok ph s t` when `s` is a phrase `ph` followed by `t`. -/
inductive Reads (ok : Numeral → Prop) : Phrase → Text → Text → Prop where
  | nullLit (t : Text) : Reads ok (.value .null) (text "null" ++ t) t
  | trueLit (t : Text) : Reads ok (.value (.bool true)) (text "true" ++ t) t
  | falseLit (t : Text) : Reads ok (.value (.bool false)) (text "false" ++ t) t
  | num {n : Numeral} (hn : n.WellFormed) (hok : ok n) (t : Text) :
      Reads ok (.value (.num n)) (n.text ++ t) t
  | str {s t : Text} {us : List StringUnit} (h : StringBody s us t) :
      Reads ok (.value (.str (joinPairs us))) (ch '"' :: s) t
  | emptyArr {s t : Text} (h : Ws s (ch ']' :: t)) : Reads ok (.value (.arr [])) (ch '[' :: s) t
  | arr {s t : Text} {vs : List Value} (h : Reads ok (.elements vs) s (ch ']' :: t)) :
      Reads ok (.value (.arr vs)) (ch '[' :: s) t
  | emptyObj {s t : Text} (h : Ws s (ch '}' :: t)) : Reads ok (.value (.obj [])) (ch '{' :: s) t
  | obj {s t : Text} {ms : List (Text × Value)} (h : Reads ok (.members ms) s (ch '}' :: t)) :
      Reads ok (.value (.obj ms)) (ch '{' :: s) t
  | lastElement {s a b t : Text} {v : Value} (hs : Ws s a) (hv : Reads ok (.value v) a b)
      (ht : Ws b t) : Reads ok (.elements [v]) s t
  | nextElement {s a b u t : Text} {v : Value} {vs : List Value} (hs : Ws s a)
      (hv : Reads ok (.value v) a b) (hc : Ws b (ch ',' :: u)) (hr : Reads ok (.elements vs) u t) :
      Reads ok (.elements (v :: vs)) s t
  | lastMember {s k a b c d t : Text} {us : List StringUnit} {v : Value}
      (hs : Ws s (ch '"' :: k)) (hk : StringBody k us a) (hc : Ws a (ch ':' :: b)) (hb : Ws b c)
      (hv : Reads ok (.value v) c d) (ht : Ws d t) : Reads ok (.members [(joinPairs us, v)]) s t
  | nextMember {s k a b c d u t : Text} {us : List StringUnit} {v : Value}
      {ms : List (Text × Value)} (hs : Ws s (ch '"' :: k)) (hk : StringBody k us a)
      (hc : Ws a (ch ':' :: b)) (hb : Ws b c) (hv : Reads ok (.value v) c d)
      (hd : Ws d (ch ',' :: u)) (hr : Reads ok (.members ms) u t) :
      Reads ok (.members ((joinPairs us, v) :: ms)) s t

/-- `JSON-text = ws value ws`. -/
def IsText (ok : Numeral → Prop) (s : Text) (v : Value) : Prop :=
  ∃ a b, Ws s a ∧ Reads ok (.value v) a b ∧ Ws b []

/-- Every numeral: RFC 8259 sets no bound. -/
def anyNumeral (_ : Numeral) : Prop := True

/-- White space may be absent. -/
theorem Ws.refl (s : Text) : Ws s s := ⟨[], by simp, rfl⟩

/-- Admitting more numerals derives no less. -/
theorem Reads.mono {ok ok' : Numeral → Prop} (hok : ∀ n, ok n → ok' n) {ph : Phrase}
    {s t : Text} (h : Reads ok ph s t) : Reads ok' ph s t := by
  induction h with
  | nullLit t => exact .nullLit t
  | trueLit t => exact .trueLit t
  | falseLit t => exact .falseLit t
  | num hn hk t => exact .num hn (hok _ hk) t
  | str h => exact .str h
  | emptyArr h => exact .emptyArr h
  | arr _ ih => exact .arr ih
  | emptyObj h => exact .emptyObj h
  | obj _ ih => exact .obj ih
  | lastElement hs _ ht ih => exact .lastElement hs ih ht
  | nextElement hs _ hc _ ihv ihr => exact .nextElement hs ihv hc ihr
  | lastMember hs hk hc hb _ ht ih => exact .lastMember hs hk hc hb ih ht
  | nextMember hs hk hc hb _ hd _ ihv ihr => exact .nextMember hs hk hc hb ihv hd ihr

/-- A wider range of numerals keeps the texts. -/
theorem IsText.mono {ok ok' : Numeral → Prop} (hok : ∀ n, ok n → ok' n) {s : Text} {v : Value}
    (h : IsText ok s v) : IsText ok' s v := by
  obtain ⟨a, b, hs, hv, hb⟩ := h
  exact ⟨a, b, hs, hv.mono hok, hb⟩

/-- Controls occur in a JSON phrase as whitespace only. -/
def Clean (t : Text) : Prop := ∀ c ∈ t, c.isControl = true → isWs c = true

instance (t : Text) : Decidable (Clean t) := inferInstanceAs (Decidable (∀ c ∈ t, _))

/-- The first control that a JSON phrase may not hold. -/
theorem exists_control_of_not_clean {t : Text} (h : ¬ Clean t) :
    ∃ a c b, t = a ++ c :: b ∧ Clean a ∧ c.isControl = true ∧ isWs c = false := by
  induction t with
  | nil => exact absurd (fun c hc => absurd hc List.not_mem_nil) h
  | cons c t ih =>
    by_cases hc : c.isControl = true → isWs c = true
    · have ht : ¬ Clean t := fun ht => h fun d hd => by
        rcases List.mem_cons.mp hd with rfl | hd
        · exact hc
        · exact ht d hd
      obtain ⟨a, d, b, rfl, ha, hd⟩ := ih ht
      refine ⟨c :: a, d, b, rfl, fun e he => ?_, hd⟩
      rcases List.mem_cons.mp he with rfl | he
      · exact hc
      · exact ha e he
    · rw [Classical.not_imp, Bool.not_eq_true] at hc
      exact ⟨[], c, t, rfl, fun _ hd => absurd hd List.not_mem_nil, hc⟩

/-- `s` is a clean text followed by `t`. -/
def CleanBefore (s t : Text) : Prop := ∃ w, Clean w ∧ s = w ++ t

/-- White space is clean. -/
theorem Ws.cleanBefore {s t : Text} (h : Ws s t) : CleanBefore s t := by
  obtain ⟨w, hw, rfl⟩ := h
  exact ⟨w, fun c hc _ => hw c hc, rfl⟩

/-- Clean parts join. -/
theorem CleanBefore.trans {s t u : Text} (h : CleanBefore s t) (h' : CleanBefore t u) :
    CleanBefore s u := by
  obtain ⟨w, hw, rfl⟩ := h
  obtain ⟨w', hw', rfl⟩ := h'
  refine ⟨w ++ w', fun c hc => ?_, (List.append_assoc ..).symm⟩
  rcases List.mem_append.mp hc with h | h
  · exact hw c h
  · exact hw' c h

/-- A character that is no control may stand in front. -/
theorem CleanBefore.cons {c : CodePoint} {s t : Text} (hc : c.isControl = false)
    (h : CleanBefore s t) : CleanBefore (c :: s) t := by
  obtain ⟨w, hw, rfl⟩ := h
  refine ⟨c :: w, fun d hd hctl => ?_, rfl⟩
  rcases List.mem_cons.mp hd with rfl | hd
  · rw [hc] at hctl
    cases hctl
  · exact hw d hd hctl

theorem CleanBefore.refl (t : Text) : CleanBefore t t := (Ws.refl t).cleanBefore

private theorem CleanBefore.of_append {w t : Text} (h : ∀ c ∈ w, c.isControl = false) :
    CleanBefore (w ++ t) t := by
  refine ⟨w, fun c hc hctl => ?_, rfl⟩
  rw [h c hc] at hctl
  cases hctl

/-- The characters a number token is made of. -/
def isNumeralChar (c : CodePoint) : Bool :=
  c.isDigit || c = ch '-' || c = ch '+' || c = ch '.' || c = ch 'e' || c = ch 'E'

/-- Digits are characters of numerals. -/
theorem isNumeralChar_of_isDigit {c : CodePoint} (h : c.isDigit = true) :
    isNumeralChar c = true := by
  simp only [isNumeralChar, h, Bool.true_or]

/-- Number tokens are printable and free of letters other than the exponent's. -/
theorem isNumeralChar_range {c : CodePoint} (h : isNumeralChar c = true) :
    0x2B ≤ c.val ∧ c.val ≤ 0x39 ∨ c.val = 0x45 ∨ c.val = 0x65 := by
  simp only [isNumeralChar, CodePoint.isDigit, Bool.or_eq_true, Bool.and_eq_true,
    decide_eq_true_eq] at h
  rcases h with ((((h | rfl) | rfl) | rfl) | rfl) | rfl
  · omega
  all_goals decide

/-- So are runs of them. -/
private theorem IsDigits.numeralChars {t : Text} (h : IsDigits t) :
    ∀ c ∈ t, isNumeralChar c = true :=
  fun c hc => isNumeralChar_of_isDigit (h.2 c hc)

/-- The integers of JSON hold no other ones. -/
private theorem IsUnsignedInt.numeralChars {t : Text} (h : IsUnsignedInt t) :
    ∀ c ∈ t, isNumeralChar c = true := by
  rcases h with rfl | ⟨d, ds, rfl, _, hd, hds⟩
  · exact fun c hc => List.mem_singleton.mp hc ▸ rfl
  · intro c hc
    rcases List.mem_cons.mp hc with rfl | hc
    · exact isNumeralChar_of_isDigit hd
    · exact isNumeralChar_of_isDigit (hds c hc)

/-- A well-formed number token consists of number characters. -/
theorem Numeral.WellFormed.numeralChars {n : Numeral} (h : n.WellFormed) :
    ∀ c ∈ n.text, isNumeralChar c = true := by
  intro c hc
  simp only [Numeral.text, List.mem_append] at hc
  rcases hc with (hc | hc) | hc
  · obtain ⟨sign, body, hint, hs, hb⟩ := h.int
    rw [hint, List.mem_append] at hc
    rcases hc with hc | hc
    · rcases hs with rfl | rfl
      · cases hc
      · exact List.mem_singleton.mp hc ▸ rfl
    · exact hb.numeralChars c hc
  · rcases h.frac with hf | ⟨ds, hf, hds⟩ <;> rw [hf] at hc
    · cases hc
    · rcases List.mem_cons.mp hc with rfl | hc
      · rfl
      · exact hds.numeralChars c hc
  · rcases h.exp with he | ⟨e, sign, ds, he, hletter, hs, hds⟩ <;> rw [he] at hc
    · cases hc
    · rcases List.mem_cons.mp hc with rfl | hc
      · rcases hletter with rfl | rfl <;> rfl
      · rcases List.mem_append.mp hc with hc | hc
        · rcases hs with rfl | rfl | rfl
          · cases hc
          · exact List.mem_singleton.mp hc ▸ rfl
          · exact List.mem_singleton.mp hc ▸ rfl
        · exact hds.numeralChars c hc

/-- A numeral holds no control. -/
private theorem Numeral.WellFormed.no_control {n : Numeral} (h : n.WellFormed) :
    ∀ c ∈ n.text, c.isControl = false := by
  intro c hc
  have hr := isNumeralChar_range (h.numeralChars c hc)
  simp only [CodePoint.isControl, decide_eq_false_iff_not]
  omega

/-- A hexadecimal digit is no control. -/
private theorem isControl_of_hexValue {c : CodePoint} {v : Fin 16} (h : hexValue c = some v) :
    c.isControl = false := by
  simp only [CodePoint.isControl, decide_eq_false_iff_not]
  unfold hexValue at h
  split at h
  · omega
  · split at h
    · omega
    · split at h
      · omega
      · cases h

/-- Neither are the four of an escape. -/
private theorem isControl_of_hex4 {a b c d u : CodePoint} (h : hex4 a b c d = some u) :
    a.isControl = false ∧ b.isControl = false ∧ c.isControl = false ∧ d.isControl = false := by
  unfold hex4 at h
  split at h
  · rename_i ha hb hc hd
    exact ⟨isControl_of_hexValue ha, isControl_of_hexValue hb, isControl_of_hexValue hc,
      isControl_of_hexValue hd⟩
  · cases h

/-- Nor is the letter of a short one. -/
private theorem isControl_of_shortEscape {e c : CodePoint} (h : shortEscapes.lookup e = some c) :
    e.isControl = false := by
  obtain ⟨l₁, l₂, hl, _⟩ := List.lookup_eq_some_iff.mp h
  have hm : (e, c) ∈ shortEscapes := by simp [hl]
  simp only [shortEscapes, List.mem_cons, Prod.mk.injEq, List.not_mem_nil, or_false] at hm
  rcases hm with ⟨rfl, _⟩ | ⟨rfl, _⟩ | ⟨rfl, _⟩ | ⟨rfl, _⟩ | ⟨rfl, _⟩ | ⟨rfl, _⟩ | ⟨rfl, _⟩ |
    ⟨rfl, _⟩ <;> rfl

/-- A string token holds no control character at all. -/
theorem StringBody.no_control {s t : Text} {us : List StringUnit} (h : StringBody s us t) :
    ∃ w, (∀ c ∈ w, c.isControl = false) ∧ s = w ++ t := by
  induction h with
  | close t => exact ⟨[ch '"'], by simp [CodePoint.isControl], rfl⟩
  | raw hc _ _ _ ih =>
    obtain ⟨w, hw, rfl⟩ := ih
    exact ⟨_ :: w, by simpa [hc] using hw, rfl⟩
  | short he _ ih =>
    obtain ⟨w, hw, rfl⟩ := ih
    refine ⟨ch '\\' :: _ :: w, ?_, rfl⟩
    intro x hx
    simp only [List.mem_cons] at hx
    rcases hx with rfl | rfl | hx
    · rfl
    · exact isControl_of_shortEscape he
    · exact hw x hx
  | unicode hu _ ih =>
    obtain ⟨w, hw, rfl⟩ := ih
    obtain ⟨ha, hb, hc, hd⟩ := isControl_of_hex4 hu
    refine ⟨ch '\\' :: ch 'u' :: _ :: _ :: _ :: _ :: w, ?_, rfl⟩
    intro x hx
    simp only [List.mem_cons] at hx
    rcases hx with rfl | rfl | rfl | rfl | rfl | rfl | hx
    · rfl
    · rfl
    · exact ha
    · exact hb
    · exact hc
    · exact hd
    · exact hw x hx

/-- The body of a string is clean. -/
theorem StringBody.cleanBefore {s t : Text} {us : List StringUnit} (h : StringBody s us t) :
    CleanBefore s t := by
  obtain ⟨w, hw, rfl⟩ := h.no_control
  exact .of_append hw

/-- No phrase of the grammar contains a control character other than whitespace. -/
theorem Reads.cleanBefore {ok : Numeral → Prop} {ph : Phrase} {s t : Text}
    (h : Reads ok ph s t) : CleanBefore s t := by
  have hpunct : ∀ x : Char, x ∈ ['"', '[', ']', '{', '}', ',', ':'] →
      (ch x).isControl = false := by
    simp [CodePoint.isControl]
  induction h with
  | nullLit t => exact .of_append (by simp [text, CodePoint.isControl])
  | trueLit t => exact .of_append (by simp [text, CodePoint.isControl])
  | falseLit t => exact .of_append (by simp [text, CodePoint.isControl])
  | num hn _ t => exact .of_append hn.no_control
  | str h => exact h.cleanBefore.cons (hpunct '"' (by simp))
  | emptyArr h =>
    exact (h.cleanBefore.trans ((CleanBefore.refl _).cons (hpunct ']' (by simp)))).cons
      (hpunct '[' (by simp))
  | arr _ ih =>
    exact (ih.trans ((CleanBefore.refl _).cons (hpunct ']' (by simp)))).cons (hpunct '[' (by simp))
  | emptyObj h =>
    exact (h.cleanBefore.trans ((CleanBefore.refl _).cons (hpunct '}' (by simp)))).cons
      (hpunct '{' (by simp))
  | obj _ ih =>
    exact (ih.trans ((CleanBefore.refl _).cons (hpunct '}' (by simp)))).cons (hpunct '{' (by simp))
  | lastElement hs _ ht ih => exact (hs.cleanBefore.trans ih).trans ht.cleanBefore
  | nextElement hs _ hc _ ihv ihr =>
    exact ((hs.cleanBefore.trans ihv).trans hc.cleanBefore).trans
      (ihr.cons (hpunct ',' (by simp)))
  | lastMember hs hk hc hb _ ht ih =>
    have hkey := (hk.cleanBefore.trans hc.cleanBefore).cons (hpunct '"' (by simp))
    have hval := ((hb.cleanBefore.trans ih).trans ht.cleanBefore).cons (hpunct ':' (by simp))
    exact (hs.cleanBefore.trans hkey).trans hval
  | nextMember hs hk hc hb _ hd _ ihv ihr =>
    have hkey := (hk.cleanBefore.trans hc.cleanBefore).cons (hpunct '"' (by simp))
    have hval := ((hb.cleanBefore.trans ihv).trans hd.cleanBefore).cons (hpunct ':' (by simp))
    exact ((hs.cleanBefore.trans hkey).trans hval).trans (ihr.cons (hpunct ',' (by simp)))

/-- A whole JSON text is clean. -/
theorem IsText.clean {ok : Numeral → Prop} {s : Text} {v : Value} (h : IsText ok s v) :
    Clean s := by
  obtain ⟨a, b, hs, hv, hb⟩ := h
  obtain ⟨w, hw, rfl⟩ := (hs.cleanBefore.trans hv.cleanBefore).trans hb.cleanBefore
  rw [List.append_nil]
  exact hw

end Ewts.Json
