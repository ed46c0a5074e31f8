import Ewts.Core.Json.Grammar

/-!
# A recursive-descent JSON reader

The reader follows the C scanner of CPython's `json`: one function for a value,
one for the members of an object, one for the elements of an array. Recursion is
bounded by a fuel argument that only has to exceed twice the length of the input.
-/

namespace Ewts.Json

/-- What a reader adds to RFC 8259 or takes from it. -/
structure Dialect where
  /-- Whether `NaN`, `Infinity` and `-Infinity` are values. -/
  constants : Bool
  /-- The numerals that the reader converts. -/
  accepts : Numeral → Bool

/-- The dialect of RFC 8259. -/
def rfc8259 : Dialect := ⟨false, fun _ => true⟩

/-- Skip insignificant whitespace. -/
def skipWs (s : Text) : Text := s.dropWhile isWs

/-- The units of a string token, read behind its opening quotation mark. Raw
control characters are refused, as `strict=True` does. -/
def scanUnits : Text → Option (List StringUnit × Text)
  | [] => none
  | c :: s =>
    if c = ch '"' then some ([], s)
    else if c = ch '\\' then
      match s with
      | [] => none
      | e :: s =>
        if e = ch 'u' then
          match s with
          | a :: b :: c :: d :: s =>
            match hex4 a b c d with
            | none => none
            | some u => (scanUnits s).map fun r => (.escaped u :: r.1, r.2)
          | _ => none
        else
          match shortEscapes.lookup e with
          | none => none
          | some c => (scanUnits s).map fun r => (.plain c :: r.1, r.2)
    else if c.isControl then none
    else (scanUnits s).map fun r => (.plain c :: r.1, r.2)

/-- A string token, behind its opening quotation mark. -/
def scanString (s : Text) : Option (Text × Text) :=
  (scanUnits s).map fun r => (joinPairs r.1, r.2)

/-- The integer part of a number token. -/
def scanInt (s : Text) : Option (Text × Text) :=
  let sign := s.takeWhile (· = ch '-') |>.take 1
  match s.drop sign.length with
  | [] => none
  | c :: r =>
    if c = ch '0' then some (sign ++ [c], r)
    else if c.isDigit then
      some (sign ++ c :: r.takeWhile CodePoint.isDigit, r.dropWhile CodePoint.isDigit)
    else none

/-- The fraction, or nothing when the point is not followed by a digit. -/
def scanFrac : Text → Text × Text
  | [] => ([], [])
  | c :: r =>
    if c = ch '.' ∧ r.takeWhile CodePoint.isDigit ≠ [] then
      (c :: r.takeWhile CodePoint.isDigit, r.dropWhile CodePoint.isDigit)
    else ([], c :: r)

/-- Optional sign of an exponent. -/
def scanSign : Text → Text × Text
  | [] => ([], [])
  | c :: r => if c = ch '+' ∨ c = ch '-' then ([c], r) else ([], c :: r)

/-- The exponent, or nothing when its letter is not followed by digits. -/
def scanExp : Text → Text × Text
  | [] => ([], [])
  | e :: r =>
    let ds := (scanSign r).2
    if (e = ch 'e' ∨ e = ch 'E') ∧ ds.takeWhile CodePoint.isDigit ≠ [] then
      (e :: ((scanSign r).1 ++ ds.takeWhile CodePoint.isDigit), ds.dropWhile CodePoint.isDigit)
    else ([], e :: r)

/-- A number token. -/
def scanNumber (s : Text) : Option (Numeral × Text) :=
  (scanInt s).map fun i =>
    let f := scanFrac i.2
    let e := scanExp f.2
    (⟨i.1, f.1, e.1⟩, e.2)

/-- The literal names and the values they denote. -/
def Dialect.literals (d : Dialect) : List (Text × Value) :=
  [(text "null", .null), (text "true", .bool true), (text "false", .bool false)] ++
    if d.constants then
      [text "NaN", text "Infinity", text "-Infinity"].map fun n => (n, .constant n)
    else []

/-- A literal name at the head of the input. -/
def scanLiteral (d : Dialect) (s : Text) : Option (Value × Text) :=
  (d.literals.find? fun l => l.1.isPrefixOf s).map fun l => (l.2, s.drop l.1.length)

/-- A literal name or a number. -/
def scanAtom (d : Dialect) (s : Text) : Option (Value × Text) :=
  match scanLiteral d s with
  | some r => some r
  | none =>
    match scanNumber s with
    | some (n, t) => if d.accepts n then some (.num n, t) else none
    | none => none

mutual

/-- A value, without surrounding whitespace. -/
def scanValue (d : Dialect) : Nat → Text → Option (Value × Text)
  | 0, _ => none
  | fuel + 1, s =>
    match s with
    | [] => none
    | c :: r =>
      if c = ch '"' then (scanString r).map fun x => (.str x.1, x.2)
      else if c = ch '{' then
        match skipWs r with
        | [] => none
        | e :: t =>
          if e = ch '}' then some (.obj [], t)
          else (scanMembers d fuel (e :: t)).map fun x => (.obj x.1, x.2)
      else if c = ch '[' then
        match skipWs r with
        | [] => none
        | e :: t =>
          if e = ch ']' then some (.arr [], t)
          else (scanElements d fuel (e :: t)).map fun x => (.arr x.1, x.2)
      else scanAtom d (c :: r)

/-- The members of a nonempty object, up to and with its closing brace. -/
def scanMembers (d : Dialect) : Nat → Text → Option (List (Text × Value) × Text)
  | 0, _ => none
  | fuel + 1, s =>
    match s with
    | [] => none
    | q :: r =>
      if q = ch '"' then
        match scanString r with
        | none => none
        | some (key, t) =>
          match skipWs t with
          | [] => none
          | c :: t =>
            if c = ch ':' then
              match scanValue d fuel (skipWs t) with
              | none => none
              | some (v, t) =>
                match skipWs t with
                | [] => none
                | c :: t =>
                  if c = ch '}' then some ([(key, v)], t)
                  else if c = ch ',' then
                    (scanMembers d fuel (skipWs t)).map fun x => ((key, v) :: x.1, x.2)
                  else none
            else none
      else none

/-- The elements of a nonempty array, up to and with its closing bracket. -/
def scanElements (d : Dialect) : Nat → Text → Option (List Value × Text)
  | 0, _ => none
  | fuel + 1, s =>
    match scanValue d fuel s with
    | none => none
    | some (v, t) =>
      match skipWs t with
      | [] => none
      | c :: t =>
        if c = ch ']' then some ([v], t)
        else if c = ch ',' then (scanElements d fuel (skipWs t)).map fun x => (v :: x.1, x.2)
        else none

end

/-- What is left after a value may only be white space. -/
def endOfText : Option (Value × Text) → Option Value
  | some (v, t) => if skipWs t = [] then some v else none
  | none => none

/-- A whole text: whitespace, a value, whitespace and nothing more. -/
def scanText (d : Dialect) (s : Text) : Option Value :=
  endOfText (scanValue d (2 * s.length + 1) (skipWs s))

/-! ## The leaves -/

/-- Whitespace of the grammar is what the reader skips, when a phrase follows it. -/
theorem skipWs_of_ws {s t : Text} (h : Ws s t) (ht : ∀ c ∈ t.head?, isWs c = false) :
    skipWs s = t := by
  obtain ⟨w, hw, rfl⟩ := h
  exact dropWhile_append_stop hw ht

@[simp] theorem scanUnits_nil : scanUnits [] = none := rfl

/-- A quote ends the string. -/
theorem scanUnits_close (s : Text) : scanUnits (ch '"' :: s) = some ([], s) := by
  rw [scanUnits.eq_def]
  simp only [ite_true]

/-- A raw character stands for itself. -/
theorem scanUnits_raw {c : CodePoint} (s : Text) (hc : c.isControl = false) (hq : c ≠ ch '"')
    (hb : c ≠ ch '\\') :
    scanUnits (c :: s) = (scanUnits s).map fun r => (.plain c :: r.1, r.2) := by
  rw [scanUnits.eq_def]
  simp only [hq, hb, hc, Bool.false_eq_true, ite_false]

/-- A short escape stands for its character. -/
theorem scanUnits_short {e c : CodePoint} (s : Text) (he : shortEscapes.lookup e = some c) :
    scanUnits (ch '\\' :: e :: s) = (scanUnits s).map fun r => (.plain c :: r.1, r.2) := by
  have hnone : shortEscapes.lookup (ch 'u') = none := by decide
  have hu : e ≠ ch 'u' := by
    rintro rfl
    rw [hnone] at he
    cases he
  have hq : ch '\\' ≠ ch '"' := by simp
  rw [scanUnits.eq_def]
  simp only [hq, hu, ite_true, ite_false, he]

/-- Four hexadecimal digits stand for a code point. -/
theorem scanUnits_unicode {a b c d u : CodePoint} (s : Text) (hu : hex4 a b c d = some u) :
    scanUnits (ch '\\' :: ch 'u' :: a :: b :: c :: d :: s) =
      (scanUnits s).map fun r => (.escaped u :: r.1, r.2) := by
  have hq : ch '\\' ≠ ch '"' := by simp
  rw [scanUnits.eq_def]
  simp only [hq, ite_true, ite_false, hu]

/-- A raw control character ends the reading. -/
theorem scanUnits_control {c : CodePoint} (s : Text) (hc : c.isControl = true) :
    scanUnits (c :: s) = none := by
  have hq : c ≠ ch '"' := by rintro rfl; exact absurd hc (by decide)
  have hb : c ≠ ch '\\' := by rintro rfl; exact absurd hc (by decide)
  rw [scanUnits.eq_def]
  simp only [hq, hb, hc, ite_true, ite_false]

/-- Every string token of the grammar is read, unit by unit. -/
theorem scanUnits_of_body {s t : Text} {us : List StringUnit} (h : StringBody s us t) :
    scanUnits s = some (us, t) := by
  induction h with
  | close t => exact scanUnits_close t
  | raw hc hq hb _ ih => rw [scanUnits_raw _ hc hq hb, ih, Option.map_some]
  | short he _ ih => rw [scanUnits_short _ he, ih, Option.map_some]
  | unicode hu _ ih => rw [scanUnits_unicode _ hu, ih, Option.map_some]

/-- A text behind which a number token ends. -/
def NumberStop (t : Text) : Prop :=
  ∀ c ∈ t.head?, c.isDigit = false ∧ c ≠ ch '.' ∧ c ≠ ch 'e' ∧ c ≠ ch 'E'

/-- Where a number ends there is no exponent. -/
theorem scanExp_of_stop {t : Text} (h : NumberStop t) : scanExp t = ([], t) := by
  cases t with
  | nil => rfl
  | cons c t =>
    have hc := h c rfl
    simp only [scanExp, hc.2.2.1, hc.2.2.2, or_self, false_and, ite_false]

/-- Nor is there another digit. -/
private theorem digits_stop {t : Text} (h : NumberStop t) :
    ∀ c ∈ t.head?, c.isDigit = false := fun c hc => (h c hc).1

/-- No digit is a sign. -/
private theorem digit_ne_sign {c : CodePoint} (h : c.isDigit = true) :
    c ≠ ch '+' ∧ c ≠ ch '-' := by
  constructor <;> rintro rfl <;> simp [CodePoint.isDigit] at h

/-- Digits have no sign in front. -/
private theorem scanSign_digits {ds t : Text} (h : IsDigits ds) :
    scanSign (ds ++ t) = ([], ds ++ t) := by
  obtain ⟨hne, hd⟩ := h
  cases ds with
  | nil => exact absurd rfl hne
  | cons c ds =>
    have hs := digit_ne_sign (hd c (List.mem_cons_self ..))
    simp only [List.cons_append, scanSign, hs.1, hs.2, or_self, ite_false]

/-- An exponent of the grammar is read as far as its digits go. -/
theorem scanExp_append {e : Text} {t : Text} (ht : NumberStop t)
    (h : e = [] ∨ ∃ l sign ds, e = l :: (sign ++ ds) ∧ (l = ch 'e' ∨ l = ch 'E') ∧
      (sign = [] ∨ sign = [ch '+'] ∨ sign = [ch '-']) ∧ IsDigits ds) :
    scanExp (e ++ t) = (e, t) := by
  rcases h with rfl | ⟨l, sign, ds, rfl, hl, hs, hds⟩
  · exact scanExp_of_stop ht
  · have htake := takeWhile_append_stop hds.2 (digits_stop ht)
    have hdrop := dropWhile_append_stop hds.2 (digits_stop ht)
    have hsign : scanSign (sign ++ ds ++ t) = (sign, ds ++ t) := by
      rcases hs with rfl | rfl | rfl
      · exact scanSign_digits hds
      · simp only [List.cons_append, List.nil_append, scanSign, true_or, ite_true]
      · simp only [List.cons_append, List.nil_append, scanSign, or_true, ite_true]
    simp only [List.cons_append, scanExp, hsign, htake, hdrop, hl, hds.1, ne_eq, not_false_eq_true,
      and_self, ite_true]

/-- A fraction of the grammar is read as far as its digits go. -/
theorem scanFrac_append {f t : Text} (ht : ∀ c ∈ t.head?, c.isDigit = false ∧ c ≠ ch '.')
    (h : f = [] ∨ ∃ ds, f = ch '.' :: ds ∧ IsDigits ds) : scanFrac (f ++ t) = (f, t) := by
  rcases h with rfl | ⟨ds, rfl, hds⟩
  · cases t with
    | nil => rfl
    | cons c t =>
      simp only [List.nil_append, scanFrac, (ht c rfl).2, false_and, ite_false]
  · have htake := takeWhile_append_stop hds.2 fun c hc => (ht c hc).1
    have hdrop := dropWhile_append_stop hds.2 fun c hc => (ht c hc).1
    simp only [List.cons_append, scanFrac, htake, hdrop, ne_eq, hds.1, not_false_eq_true, and_self,
      ite_true]

/-- An integer part of the grammar is read as far as its digits go. -/
theorem scanInt_append {i t : Text} (ht : ∀ c ∈ t.head?, c.isDigit = false)
    (h : ∃ sign body, i = sign ++ body ∧ (sign = [] ∨ sign = [ch '-']) ∧ IsUnsignedInt body) :
    scanInt (i ++ t) = some (i, t) := by
  obtain ⟨sign, body, rfl, hs, hb⟩ := h
  have hdigit : ∃ c r, body = c :: r ∧ c ≠ ch '-' := by
    rcases hb with rfl | ⟨c, ds, rfl, _, hc, _⟩
    · exact ⟨_, _, rfl, by simp⟩
    · exact ⟨_, _, rfl, (digit_ne_sign hc).2⟩
  have hsign : ((sign ++ body ++ t).takeWhile (· = ch '-')).take 1 = sign := by
    obtain ⟨c, r, rfl, hc⟩ := hdigit
    rcases hs with rfl | rfl <;>
      simp [hc]
  rw [scanInt, hsign, List.append_assoc, List.drop_left]
  rcases hb with rfl | ⟨c, ds, rfl, h0, hc, hds⟩
  · simp only [List.cons_append, List.nil_append, ite_true]
  · have htake := takeWhile_append_stop hds ht
    have hdrop := dropWhile_append_stop hds ht
    simp only [List.cons_append, h0, hc, ite_true, ite_false, htake, hdrop]

/-- What follows an integer part: an exponent letter, a point or a stop. -/
theorem scanNumber_append {n : Numeral} (hn : n.WellFormed) {t : Text} (ht : NumberStop t) :
    scanNumber (n.text ++ t) = some (n, t) := by
  have hexp : ∀ c ∈ (n.exp ++ t).head?, c.isDigit = false ∧ c ≠ ch '.' := by
    rcases hn.exp with he | ⟨l, sign, ds, he, hl, _, _⟩
    · rw [he, List.nil_append]
      exact fun c hc => ⟨(ht c hc).1, (ht c hc).2.1⟩
    · rw [he, List.cons_append]
      intro c hc
      cases hc
      rcases hl with rfl | rfl <;> exact ⟨rfl, by simp⟩
  have hfrac : ∀ c ∈ (n.frac ++ (n.exp ++ t)).head?, c.isDigit = false := by
    rcases hn.frac with hf | ⟨ds, hf, _⟩
    · rw [hf, List.nil_append]
      exact fun c hc => (hexp c hc).1
    · rw [hf, List.cons_append]
      intro c hc
      cases hc
      rfl
  simp only [Numeral.text, List.append_assoc, scanNumber, scanInt_append hfrac hn.int,
    scanFrac_append hexp hn.frac, scanExp_append ht hn.exp, Option.map_some]

/-! ## Values -/

/-- The first characters of a number token decide every later dispatch. -/
theorem Numeral.WellFormed.text_head {n : Numeral} (hn : n.WellFormed) :
    (∃ c r, n.text = c :: r ∧ c.isDigit = true) ∨
      ∃ c r, n.text = ch '-' :: c :: r ∧ c.isDigit = true := by
  obtain ⟨sign, body, hint, hs, hb⟩ := hn.int
  obtain ⟨c, r, rfl, hc⟩ : ∃ c r, body = c :: r ∧ c.isDigit = true := by
    rcases hb with rfl | ⟨c, ds, rfl, _, hc, _⟩
    · exact ⟨_, _, rfl, rfl⟩
    · exact ⟨_, _, rfl, hc⟩
  rcases hs with rfl | rfl
  · exact Or.inl ⟨c, r ++ n.frac ++ n.exp, by simp [Numeral.text, hint], hc⟩
  · exact Or.inr ⟨c, r ++ n.frac ++ n.exp, by simp [Numeral.text, hint], hc⟩

/-- A digit differs from every character that is none. -/
private theorem digit_ne_of_not {c : CodePoint} (h : c.isDigit = true) (x : Char)
    (hx : (ch x).isDigit = false) : c ≠ ch x := by
  rintro rfl
  rw [h] at hx
  cases hx

/-- A number token begins no literal name. -/
theorem scanLiteral_numeral (d : Dialect) {n : Numeral} (hn : n.WellFormed) (t : Text) :
    scanLiteral d (n.text ++ t) = none := by
  simp only [scanLiteral, Option.map_eq_none_iff, List.find?_eq_none]
  rcases hn.text_head with ⟨c, r, he, hc⟩ | ⟨c, r, he, hc⟩ <;> rw [he] <;>
    have hne := digit_ne_of_not hc <;>
    cases hd : d.constants <;>
    simp [Dialect.literals, hd, text, (hne 'n' rfl).symm, (hne 't' rfl).symm, (hne 'f' rfl).symm,
      (hne 'N' rfl).symm, (hne 'I' rfl).symm, (hne '-' rfl).symm]

/-- How a value of the grammar begins: never with whitespace or a closing bracket. -/
theorem Reads.value_head {ok : Numeral → Prop} {v : Value} {s t : Text}
    (h : Reads ok (.value v) s t) : ∃ c r, s = c :: r ∧ isWs c = false ∧ c ≠ ch ']' := by
  cases h with
  | nullLit => exact ⟨_, _, rfl, rfl, by decide⟩
  | trueLit => exact ⟨_, _, rfl, rfl, by decide⟩
  | falseLit => exact ⟨_, _, rfl, rfl, by decide⟩
  | num hn _ =>
    rcases hn.text_head with ⟨c, r, he, hc⟩ | ⟨c, r, he, hc⟩
    · refine ⟨c, r ++ t, by rw [he, List.cons_append], ?_, digit_ne_of_not hc ']' rfl⟩
      simp only [CodePoint.isDigit, Bool.and_eq_true, decide_eq_true_eq] at hc
      simp only [isWs, Bool.or_eq_false_iff, decide_eq_false_iff_not]
      omega
    · exact ⟨_, _, by rw [he, List.cons_append], rfl, by simp⟩
  | str _ => exact ⟨_, _, rfl, rfl, by simp⟩
  | emptyArr _ => exact ⟨_, _, rfl, rfl, by simp⟩
  | arr _ => exact ⟨_, _, rfl, rfl, by simp⟩
  | emptyObj _ => exact ⟨_, _, rfl, rfl, by simp⟩
  | obj _ => exact ⟨_, _, rfl, rfl, by simp⟩

/-- White space ends where a value begins. -/
private theorem skipWs_value {ok : Numeral → Prop} {v : Value} {s a t : Text} (hs : Ws s a)
    (hv : Reads ok (.value v) a t) : skipWs s = a := by
  obtain ⟨c, r, rfl, hc, _⟩ := hv.value_head
  exact skipWs_of_ws hs fun x hx => by cases hx; exact hc

/-- It ends at a mark of punctuation. -/
private theorem skipWs_punct {s t : Text} {c : Char} (hs : Ws s (ch c :: t))
    (hc : isWs (ch c) = false) : skipWs s = ch c :: t :=
  skipWs_of_ws hs fun x hx => by cases hx; exact hc

/-- A nonempty array body begins with its first element. -/
theorem Reads.elements_head {ok : Numeral → Prop} {vs : List Value} {s t : Text}
    (h : Reads ok (.elements vs) s t) : ∃ c r, skipWs s = c :: r ∧ c ≠ ch ']' := by
  cases h with
  | lastElement hs hv _ =>
    obtain ⟨c, r, he, _, hc⟩ := hv.value_head
    exact ⟨c, r, by rw [skipWs_value hs hv, he], hc⟩
  | nextElement hs hv _ _ =>
    obtain ⟨c, r, he, _, hc⟩ := hv.value_head
    exact ⟨c, r, by rw [skipWs_value hs hv, he], hc⟩

/-- A nonempty object body begins with its first key. -/
theorem Reads.members_head {ok : Numeral → Prop} {ms : List (Text × Value)} {s t : Text}
    (h : Reads ok (.members ms) s t) : ∃ r, skipWs s = ch '"' :: r := by
  cases h with
  | lastMember hs _ _ _ _ _ => exact ⟨_, skipWs_punct hs rfl⟩
  | nextMember hs _ _ _ _ _ _ => exact ⟨_, skipWs_punct hs rfl⟩

/-- The rest of a text is not longer than the text. -/
theorem CleanBefore.length_le {s t : Text} (h : CleanBefore s t) : t.length ≤ s.length := by
  obtain ⟨w, _, rfl⟩ := h
  rw [List.length_append]
  omega

/-- A number token ends before whitespace and before punctuation. -/
theorem numberStop_of_ws {s t : Text} {c : Char} (h : Ws s (ch c :: t))
    (hc : c = ',' ∨ c = ']' ∨ c = '}') : NumberStop s := by
  obtain ⟨w, hw, rfl⟩ := h
  cases w with
  | nil =>
    intro x hx
    cases hx
    rcases hc with rfl | rfl | rfl <;> exact ⟨rfl, by simp, by simp, by simp⟩
  | cons x w =>
    intro y hy
    cases hy
    have hx := hw x (List.mem_cons_self ..)
    simp only [isWs, Bool.or_eq_true, decide_eq_true_eq] at hx
    refine ⟨?_, ?_, ?_, ?_⟩
    · simp only [CodePoint.isDigit, Bool.and_eq_false_iff, decide_eq_false_iff_not]
      omega
    all_goals
      rintro rfl
      exact absurd hx (by decide)

/-- A number may stand at the end of a text. -/
theorem numberStop_of_ws_nil {s : Text} (h : Ws s []) : NumberStop s := by
  have h' : Ws (s ++ [ch ',']) (ch ',' :: []) := by
    obtain ⟨w, hw, rfl⟩ := h
    exact ⟨w, hw, by simp⟩
  intro c hc
  apply numberStop_of_ws h' (Or.inl rfl) c
  cases s with
  | nil => cases hc
  | cons x s => exact hc

/-- What the reader does on a phrase of the grammar. -/
def Scans (d : Dialect) : Phrase → Text → Text → Prop
  | .value v, s, t => NumberStop t → ∀ fuel, 2 * s.length < fuel →
      scanValue d fuel s = some (v, t)
  | .elements vs, s, t => ∀ u, t = ch ']' :: u → ∀ fuel, 2 * s.length + 1 < fuel →
      scanElements d fuel (skipWs s) = some (vs, u)
  | .members ms, s, t => ∀ u, t = ch '}' :: u → ∀ fuel, 2 * s.length + 1 < fuel →
      scanMembers d fuel (skipWs s) = some (ms, u)

/-! One step of the reader at each construct. -/

section Steps

variable {d : Dialect} {fuel : Nat}

/-- A quote begins a string. -/
theorem scanValue_str {s t v : Text} (h : scanString s = some (v, t)) :
    scanValue d (fuel + 1) (ch '"' :: s) = some (.str v, t) := by
  rw [scanValue.eq_def]
  simp only [ite_true, h, Option.map_some]

/-- A value that begins with no mark has no parts. -/
theorem scanValue_atom {c : CodePoint} {s : Text} (hq : c ≠ ch '"') (ho : c ≠ ch '{')
    (ha : c ≠ ch '[') : scanValue d (fuel + 1) (c :: s) = scanAtom d (c :: s) := by
  rw [scanValue.eq_def]
  simp only [hq, ho, ha, ite_false]

/-- An object may be empty. -/
theorem scanValue_emptyObj {s t : Text} (h : skipWs s = ch '}' :: t) :
    scanValue d (fuel + 1) (ch '{' :: s) = some (.obj [], t) := by
  have hq : ch '{' ≠ ch '"' := by simp
  rw [scanValue.eq_def]
  simp only [hq, ite_true, ite_false, h]

/-- Otherwise its members follow. -/
theorem scanValue_obj {s r t : Text} {ms : List (Text × Value)} (hh : skipWs s = ch '"' :: r)
    (h : scanMembers d fuel (skipWs s) = some (ms, t)) :
    scanValue d (fuel + 1) (ch '{' :: s) = some (.obj ms, t) := by
  have hq : ch '{' ≠ ch '"' := by simp
  have hc : ch '"' ≠ ch '}' := by simp
  rw [hh] at h
  rw [scanValue.eq_def]
  simp only [hq, hc, ite_true, ite_false, hh, h, Option.map_some]

/-- An array may be empty. -/
theorem scanValue_emptyArr {s t : Text} (h : skipWs s = ch ']' :: t) :
    scanValue d (fuel + 1) (ch '[' :: s) = some (.arr [], t) := by
  have hq : ch '[' ≠ ch '"' := by simp
  have ho : ch '[' ≠ ch '{' := by simp
  rw [scanValue.eq_def]
  simp only [hq, ho, ite_true, ite_false, h]

/-- Otherwise its elements follow. -/
theorem scanValue_arr {s r t : Text} {c : CodePoint} {vs : List Value} (hh : skipWs s = c :: r)
    (hc : c ≠ ch ']') (h : scanElements d fuel (skipWs s) = some (vs, t)) :
    scanValue d (fuel + 1) (ch '[' :: s) = some (.arr vs, t) := by
  have hq : ch '[' ≠ ch '"' := by simp
  have ho : ch '[' ≠ ch '{' := by simp
  rw [hh] at h
  rw [scanValue.eq_def]
  simp only [hq, ho, hc, ite_true, ite_false, hh, h, Option.map_some]

/-- A bracket ends the elements. -/
theorem scanElements_last {s e t : Text} {v : Value} (hv : scanValue d fuel s = some (v, e))
    (ht : skipWs e = ch ']' :: t) : scanElements d (fuel + 1) s = some ([v], t) := by
  rw [scanElements.eq_def]
  simp only [hv, ht, ite_true]

/-- A comma leads to the next element. -/
theorem scanElements_next {s e u t : Text} {v : Value} {vs : List Value}
    (hv : scanValue d fuel s = some (v, e)) (he : skipWs e = ch ',' :: u)
    (hr : scanElements d fuel (skipWs u) = some (vs, t)) :
    scanElements d (fuel + 1) s = some (v :: vs, t) := by
  have hc : ch ',' ≠ ch ']' := by simp
  rw [scanElements.eq_def]
  simp only [hv, he, hc, ite_true, ite_false, hr, Option.map_some]

/-- A brace ends the members. -/
theorem scanMembers_last {k key a b e t : Text} {v : Value} (hk : scanString k = some (key, a))
    (ha : skipWs a = ch ':' :: b) (hv : scanValue d fuel (skipWs b) = some (v, e))
    (ht : skipWs e = ch '}' :: t) :
    scanMembers d (fuel + 1) (ch '"' :: k) = some ([(key, v)], t) := by
  rw [scanMembers.eq_def]
  simp only [hk, ha, hv, ht, ite_true]

/-- A comma leads to the next member. -/
theorem scanMembers_next {k key a b e u t : Text} {v : Value} {ms : List (Text × Value)}
    (hk : scanString k = some (key, a)) (ha : skipWs a = ch ':' :: b)
    (hv : scanValue d fuel (skipWs b) = some (v, e)) (he : skipWs e = ch ',' :: u)
    (hr : scanMembers d fuel (skipWs u) = some (ms, t)) :
    scanMembers d (fuel + 1) (ch '"' :: k) = some ((key, v) :: ms, t) := by
  have hc : ch ',' ≠ ch '}' := by simp
  rw [scanMembers.eq_def]
  simp only [hk, ha, hv, he, hc, ite_true, ite_false, hr, Option.map_some]

end Steps

/-- A string is read as its body says. -/
private theorem scanString_of_body {s t : Text} {us : List StringUnit} (h : StringBody s us t) :
    scanString s = some (joinPairs us, t) := by
  rw [scanString, scanUnits_of_body h, Option.map_some]

/-- A number token is read as the numeral it spells, when the dialect admits it. -/
theorem scanAtom_numeral {d : Dialect} {n : Numeral} (hn : n.WellFormed)
    (hok : d.accepts n = true) {t : Text} (ht : NumberStop t) :
    scanAtom d (n.text ++ t) = some (.num n, t) := by
  simp only [scanAtom, scanLiteral_numeral d hn, scanNumber_append hn ht, hok, ite_true]

/-- The three literals are read as their values. -/
private theorem scanValue_literal {d : Dialect} {l : String} {v : Value} {fuel : Nat} (t : Text)
    (hl : (l, v) ∈ [("null", Value.null), ("true", .bool true), ("false", .bool false)])
    (hf : 0 < fuel) : scanValue d fuel (text l ++ t) = some (v, t) := by
  obtain ⟨fuel, rfl⟩ := Nat.exists_eq_add_of_lt hf
  simp only [List.mem_cons, Prod.mk.injEq, List.not_mem_nil, or_false] at hl
  rcases hl with ⟨rfl, rfl⟩ | ⟨rfl, rfl⟩ | ⟨rfl, rfl⟩ <;>
    rw [scanValue.eq_def] <;> simp [text, scanAtom, scanLiteral, Dialect.literals]

/-- The reader accepts every phrase of the grammar, with the same value and rest. -/
theorem Reads.scans {d : Dialect} {ph : Phrase} {s t : Text}
    (h : Reads (fun n => d.accepts n = true) ph s t) : Scans d ph s t := by
  -- Fuel only has to exceed the input, and every recursive call consumed a character.
  induction h with
  | nullLit t => exact fun _ fuel hf => scanValue_literal t (by simp) (by omega)
  | trueLit t => exact fun _ fuel hf => scanValue_literal t (by simp) (by omega)
  | falseLit t => exact fun _ fuel hf => scanValue_literal t (by simp) (by omega)
  | @num n hn hok t =>
    intro ht fuel hf
    obtain ⟨fuel, rfl⟩ := Nat.exists_eq_add_of_lt (Nat.zero_lt_of_lt hf)
    rw [← scanAtom_numeral hn hok ht]
    rcases hn.text_head with ⟨c, r, he, hc⟩ | ⟨c, r, he, hc⟩
    · rw [he, List.cons_append]
      have hne := digit_ne_of_not hc
      exact scanValue_atom (hne '"' rfl) (hne '{' rfl) (hne '[' rfl)
    · rw [he, List.cons_append]
      exact scanValue_atom (by simp) (by simp) (by simp)
  | str h =>
    intro _ fuel hf
    obtain ⟨fuel, rfl⟩ := Nat.exists_eq_add_of_lt (Nat.zero_lt_of_lt hf)
    exact scanValue_str (scanString_of_body h)
  | emptyArr h =>
    intro _ fuel hf
    obtain ⟨fuel, rfl⟩ := Nat.exists_eq_add_of_lt (Nat.zero_lt_of_lt hf)
    exact scanValue_emptyArr (skipWs_punct h rfl)
  | arr h ih =>
    intro _ fuel hf
    obtain ⟨fuel, rfl⟩ := Nat.exists_eq_add_of_lt (Nat.zero_lt_of_lt hf)
    obtain ⟨c, r, hr, hc⟩ := h.elements_head
    simp only [List.length_cons] at hf
    exact scanValue_arr hr hc (ih _ rfl _ (by omega))
  | emptyObj h =>
    intro _ fuel hf
    obtain ⟨fuel, rfl⟩ := Nat.exists_eq_add_of_lt (Nat.zero_lt_of_lt hf)
    exact scanValue_emptyObj (skipWs_punct h rfl)
  | obj h ih =>
    intro _ fuel hf
    obtain ⟨fuel, rfl⟩ := Nat.exists_eq_add_of_lt (Nat.zero_lt_of_lt hf)
    obtain ⟨r, hr⟩ := h.members_head
    simp only [List.length_cons] at hf
    exact scanValue_obj hr (ih _ rfl _ (by omega))
  | lastElement hs hv ht ih =>
    rintro u rfl fuel hf
    obtain ⟨fuel, rfl⟩ := Nat.exists_eq_add_of_lt (Nat.zero_lt_of_lt hf)
    have ha := hs.cleanBefore.length_le
    rw [skipWs_value hs hv]
    exact scanElements_last (ih (numberStop_of_ws ht (by simp)) _ (by omega)) (skipWs_punct ht rfl)
  | nextElement hs hv hc _ ihv ihr =>
    rintro u rfl fuel hf
    obtain ⟨fuel, rfl⟩ := Nat.exists_eq_add_of_lt (Nat.zero_lt_of_lt hf)
    have ha := hs.cleanBefore.length_le
    have hb := hv.cleanBefore.length_le
    have hu := hc.cleanBefore.length_le
    simp only [List.length_cons] at hu
    rw [skipWs_value hs hv]
    exact scanElements_next (ihv (numberStop_of_ws hc (by simp)) _ (by omega)) (skipWs_punct hc rfl)
      (ihr _ rfl _ (by omega))
  | lastMember hs hk hc hb hv ht ih =>
    rintro u rfl fuel hf
    obtain ⟨fuel, rfl⟩ := Nat.exists_eq_add_of_lt (Nat.zero_lt_of_lt hf)
    have hlen := hs.cleanBefore.length_le
    have hkey := (hk.cleanBefore.trans hc.cleanBefore).length_le
    have hval := hb.cleanBefore.length_le
    simp only [List.length_cons] at hlen hkey
    rw [skipWs_punct hs rfl]
    refine scanMembers_last (scanString_of_body hk) (skipWs_punct hc rfl) ?_ (skipWs_punct ht rfl)
    rw [skipWs_value hb hv]
    exact ih (numberStop_of_ws ht (by simp)) _ (by omega)
  | nextMember hs hk hc hb hv hd _ ihv ihr =>
    rintro u rfl fuel hf
    obtain ⟨fuel, rfl⟩ := Nat.exists_eq_add_of_lt (Nat.zero_lt_of_lt hf)
    have hlen := hs.cleanBefore.length_le
    have hkey := (hk.cleanBefore.trans hc.cleanBefore).length_le
    have hval := hb.cleanBefore.length_le
    have hrest := (hv.cleanBefore.trans hd.cleanBefore).length_le
    simp only [List.length_cons] at hlen hkey hrest
    rw [skipWs_punct hs rfl]
    refine scanMembers_next (scanString_of_body hk) (skipWs_punct hc rfl) ?_ (skipWs_punct hd rfl)
      (ihr _ rfl _ (by omega))
    rw [skipWs_value hb hv]
    exact ihv (numberStop_of_ws hd (by simp)) _ (by omega)

/-- Completeness: every JSON text of the grammar is read as its value. -/
theorem IsText.scanText {d : Dialect} {s : Text} {v : Value}
    (h : IsText (fun n => d.accepts n = true) s v) : scanText d s = some v := by
  obtain ⟨a, b, hs, hv, hb⟩ := h
  have hlen := hs.cleanBefore.length_le
  have hend : skipWs b = [] := by
    obtain ⟨w, hw, rfl⟩ := hb
    exact dropWhile_append_stop hw (by simp)
  rw [Json.scanText, skipWs_value hs hv, hv.scans (numberStop_of_ws_nil hb) _ (by omega)]
  simp only [endOfText, hend, ite_true]

end Ewts.Json
