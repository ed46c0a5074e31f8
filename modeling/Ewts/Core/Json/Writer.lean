import Ewts.Core.Json.Fuel
import Ewts.Core.Search

/-!
# Writing JSON objects

A writer spells strings character by character and joins members with one layout.
What it writes is derived by the grammar; a text it wrote that is cut inside a
string token, or that spells a control character raw, is refused by the reader.
-/

namespace Ewts.Json

/-- Part of a string token between its quotation marks, and the units it spells. -/
inductive Spelling : Text → List StringUnit → Prop where
  | nil : Spelling [] []
  | raw {c : CodePoint} (hc : c.isControl = false) (hq : c ≠ ch '"') (hb : c ≠ ch '\\') :
      Spelling [c] [.plain c]
  | short {e c : CodePoint} (he : shortEscapes.lookup e = some c) :
      Spelling [ch '\\', e] [.plain c]
  | unicode {a b c d u : CodePoint} (hu : hex4 a b c d = some u) :
      Spelling [ch '\\', ch 'u', a, b, c, d] [.escaped u]
  | append {s s' : Text} {us us' : List StringUnit} (h : Spelling s us) (h' : Spelling s' us') :
      Spelling (s ++ s') (us ++ us')

/-- A spelled text extends every string body. -/
theorem Spelling.body {s : Text} {us : List StringUnit} (h : Spelling s us) :
    ∀ {r t : Text} {vs : List StringUnit}, StringBody r vs t →
      StringBody (s ++ r) (us ++ vs) t := by
  induction h with
  | nil => exact id
  | raw hc hq hb => exact .raw hc hq hb
  | short he => exact .short he
  | unicode hu => exact .unicode hu
  | append _ _ ih ih' =>
    intro r t vs hr
    rw [List.append_assoc, List.append_assoc]
    exact ih (ih' hr)

/-- The reader passes over a spelled text and goes on with what follows. -/
theorem Spelling.scan {s : Text} {us : List StringUnit} (h : Spelling s us) :
    ∀ r, scanUnits (s ++ r) = (scanUnits r).map fun x => (us ++ x.1, x.2) := by
  induction h with
  | nil =>
    intro r
    simp only [List.nil_append, Option.map_id']
  | raw hc hq hb => exact fun r => scanUnits_raw r hc hq hb
  | short he => exact fun r => scanUnits_short r he
  | unicode hu => exact fun r => scanUnits_unicode r hu
  | append _ _ ih ih' =>
    intro r
    rw [List.append_assoc, ih, ih', Option.map_map]
    congr 1
    funext x
    simp only [Function.comp_apply, List.append_assoc]

/-- A string token that is cut before its closing quotation mark is refused. -/
theorem Spelling.scan_truncated {s : Text} {us : List StringUnit} (h : Spelling s us) :
    scanUnits s = none := by
  have hs := h.scan []
  rwa [List.append_nil, scanUnits_nil, Option.map_none] at hs

/-- A raw control character in a string token is refused. -/
theorem Spelling.scan_control {s : Text} {us : List StringUnit} (h : Spelling s us)
    {c : CodePoint} (hc : c.isControl = true) (r : Text) : scanUnits (s ++ c :: r) = none := by
  rw [h.scan, scanUnits_control r hc, Option.map_none]

/-- Spelling character by character. -/
theorem Spelling.flatMap {write : CodePoint → Text} {units : CodePoint → List StringUnit}
    {s : Text} (h : ∀ c ∈ s, Spelling (write c) (units c)) :
    Spelling (s.flatMap write) (s.flatMap units) := by
  induction s with
  | nil => exact .nil
  | cons c s ih =>
    rw [List.flatMap_cons, List.flatMap_cons]
    exact .append (h c (List.mem_cons_self ..)) (ih fun d hd => h d (List.mem_cons_of_mem _ hd))

/-- Characters that are written raw form no surrogate pairs. -/
@[simp] theorem joinPairs_plain (s : Text) : joinPairs (s.map .plain) = s := by
  induction s with
  | nil => rfl
  | cons c s ih =>
    rw [List.map_cons, joinPairs, ih]

/-- An escape that is not a high surrogate stands for itself. -/
theorem joinPairs_escaped {c : CodePoint} (h : isHigh c = false) (us : List StringUnit) :
    joinPairs (.escaped c :: us) = c :: joinPairs us := by
  cases us with
  | nil => rfl
  | cons u us =>
    cases u with
    | plain d => rfl
    | escaped d => simp only [joinPairs, h, Bool.false_eq_true, false_and, ite_false]

/-- Escapes of a surrogate pair stand for one character. -/
theorem joinPairs_pair {hi lo : CodePoint} (hhi : isHigh hi = true) (hlo : isLow lo = true)
    (us : List StringUnit) :
    joinPairs (.escaped hi :: .escaped lo :: us) = joinSurrogates hi lo :: joinPairs us := by
  simp only [joinPairs, hhi, hlo, and_self, ite_true]

/-- Characters that a string token may hold as they are. -/
def IsPlain (s : Text) : Prop := ∀ c ∈ s, c.isControl = false ∧ c ≠ ch '"' ∧ c ≠ ch '\\'

instance (s : Text) : Decidable (IsPlain s) := inferInstanceAs (Decidable (∀ c ∈ s, _))

/-- Plain characters are spelled by themselves. -/
theorem Spelling.of_plain {s : Text} (h : IsPlain s) : Spelling s (s.map .plain) := by
  have hs : Spelling (s.flatMap fun c => [c]) (s.flatMap fun c => [.plain c]) :=
    Spelling.flatMap fun c hc => .raw (h c hc).1 (h c hc).2.1 (h c hc).2.2
  rwa [List.flatMap_singleton', ← List.map_eq_flatMap] at hs

/-- A quoted key, the colon with its gap, and the text written for the value. -/
def renderMember (gap : Text) (m : Text × Text) : Text :=
  ch '"' :: m.1 ++ ch '"' :: ch ':' :: gap ++ m.2

/-- Members joined by commas with their gaps. -/
def renderMembers (gap : Text) : List (Text × Text) → Text
  | [] => []
  | [m] => renderMember gap m
  | m :: m' :: ms => renderMember gap m ++ ch ',' :: gap ++ renderMembers gap (m' :: ms)

/-- An object of the given keys and written values. -/
def renderObject (gap : Text) (ms : List (Text × Text)) : Text :=
  ch '{' :: renderMembers gap ms ++ [ch '}']

/-- A member together with the value that its written text denotes. -/
structure Member where
  key : Text
  written : Text
  value : Value

/-- What the writer joins. -/
def Member.spelled (m : Member) : Text × Text := (m.key, m.written)

/-- The key needs no escape and the written text is a phrase of the value. -/
def Member.Sound (ok : Numeral → Prop) (m : Member) : Prop :=
  IsPlain m.key ∧ ∀ t, Reads ok (.value m.value) (m.written ++ t) t

/-- The members that a reader finds. -/
def Member.pair (m : Member) : Text × Value := (m.key, m.value)

section Grammar

variable {gap : Text}

/-- A plain key is its own body. -/
private theorem keyBody {key : Text} (h : IsPlain key) (t : Text) :
    StringBody (key ++ ch '"' :: t) (key.map .plain) t := by
  have hb := (Spelling.of_plain h).body (StringBody.close t)
  rwa [List.append_nil] at hb

/-- One member in front of the phrase that follows it. -/
private theorem render_append (gap : Text) (m : Member) (t : Text) :
    renderMember gap m.spelled ++ t =
      ch '"' :: (m.key ++ ch '"' :: ch ':' :: (gap ++ (m.written ++ t))) := by
  simp only [renderMember, Member.spelled, List.cons_append, List.append_assoc]

/-- Written members are read as they are, by induction on their list. -/
private theorem reads_renderMembers {ok : Numeral → Prop} (hgap : ∀ c ∈ gap, isWs c = true)
    {ms : List Member} (hms : ∀ m ∈ ms, m.Sound ok) (hne : ms ≠ []) {pre : Text}
    (hpre : ∀ c ∈ pre, isWs c = true) (t : Text) :
    Reads ok (.members (ms.map Member.pair))
      (pre ++ renderMembers gap (ms.map Member.spelled) ++ t) t := by
  induction ms generalizing pre with
  | nil => exact absurd rfl hne
  | cons m ms ih =>
    obtain ⟨hkey, hval⟩ := hms m (List.mem_cons_self ..)
    have hpair : m.pair = (joinPairs (m.key.map .plain), m.value) := by
      rw [joinPairs_plain]
      rfl
    have hws : ∀ r, Ws (gap ++ r) r := fun r => ⟨gap, hgap, rfl⟩
    cases ms with
    | nil =>
      rw [List.map_cons, List.map_nil, List.map_cons, List.map_nil, renderMembers,
        List.append_assoc, render_append, hpair]
      exact .lastMember ⟨pre, hpre, rfl⟩ (keyBody hkey _) (Ws.refl _) (hws _) (hval _)
        (Ws.refl t)
    | cons m' ms =>
      have hrest := ih (fun x hx => hms x (List.mem_cons_of_mem _ hx)) (by simp) hgap
      simp only [List.map_cons] at hrest ⊢
      rw [renderMembers, List.append_assoc, List.append_assoc, List.append_assoc, render_append,
        hpair, List.cons_append]
      refine .nextMember ⟨pre, hpre, rfl⟩ (keyBody hkey _) (Ws.refl _) (hws _) (hval _)
        (Ws.refl _) ?_
      rw [← List.append_assoc]
      exact hrest

/-- A written object is a JSON text of its members, in their order. -/
theorem isText_renderObject {ok : Numeral → Prop} (hgap : ∀ c ∈ gap, isWs c = true)
    {ms : List Member} (hms : ∀ m ∈ ms, m.Sound ok) (hne : ms ≠ []) :
    IsText ok (renderObject gap (ms.map Member.spelled)) (.obj (ms.map Member.pair)) := by
  refine ⟨_, [], Ws.refl _, .obj ?_, Ws.refl []⟩
  have hpre : ∀ c ∈ ([] : Text), isWs c = true := by simp
  exact reads_renderMembers hgap hms hne hpre (ch '}' :: [])

end Grammar

section Refused

variable {d : Dialect} {gap : Text}

/-- Members in front of another one, each with its comma. -/
def renderBefore (gap : Text) (ms : List Member) : Text :=
  ms.flatMap fun m => renderMember gap m.spelled ++ ch ',' :: gap

/-- The beginning of a member whose value is a string token starting with `junk`. -/
def openString (gap key junk : Text) : Text :=
  ch '"' :: key ++ ch '"' :: ch ':' :: gap ++ ch '"' :: junk

/-- A plain key is read back. -/
private theorem scanString_key {key : Text} (h : IsPlain key) (t : Text) :
    scanString (key ++ ch '"' :: t) = some (key, t) := by
  rw [scanString, scanUnits_of_body (keyBody h t), Option.map_some, joinPairs_plain]

/-- The gap of a writer is white space. -/
private theorem skipWs_gap (hgap : ∀ c ∈ gap, isWs c = true) {c : CodePoint} (hc : isWs c = false)
    (t : Text) : skipWs (gap ++ c :: t) = c :: t :=
  skipWs_of_ws ⟨gap, hgap, rfl⟩ fun x hx => by cases hx; exact hc

/-- A string without an end is no value. -/
private theorem scanValue_openString {junk : Text} (h : scanUnits junk = none) (fuel : Nat) :
    scanValue d fuel (ch '"' :: junk) = none := by
  cases fuel with
  | zero => rw [scanValue.eq_def]
  | succ fuel =>
    rw [scanValue.eq_def]
    simp only [ite_true, scanString, h, Option.map_none]

/-- An object whose members are refused. -/
private theorem scanValue_members {s r : Text} (hs : skipWs s = s) (hr : s = ch '"' :: r)
    (h : ∀ fuel, scanMembers d fuel s = none) (fuel : Nat) :
    scanValue d fuel (ch '{' :: s) = none := by
  cases fuel with
  | zero => rw [scanValue.eq_def]
  | succ fuel =>
    cases hv : scanValue d (fuel + 1) (ch '{' :: s) with
    | none => rfl
    | some x =>
      rcases scanValue_cases hv with ⟨_, _, he, _⟩ | ⟨u, he, hu, _⟩ | ⟨u, c, w, ms, he, hu, hm, _⟩ |
        ⟨_, he, _⟩ | ⟨_, _, _, _, he, _⟩ | ⟨c, u, he, _, hc, _⟩
      · simp at he
      · cases he
        rw [hs, hr] at hu
        simp at hu
      · cases he
        rw [← hu, hs, h] at hm
        cases hm
      · simp at he
      · simp at he
      · cases he
        exact absurd rfl hc

/-- A member whose string token is refused. -/
private theorem scanMembers_openString (hgap : ∀ c ∈ gap, isWs c = true) {key junk : Text}
    (hkey : IsPlain key) (h : scanUnits junk = none) (fuel : Nat) :
    scanMembers d fuel (openString gap key junk) = none := by
  cases fuel with
  | zero => rw [scanMembers.eq_def]
  | succ fuel =>
    cases hm : scanMembers d (fuel + 1) (openString gap key junk) with
    | none => rfl
    | some r =>
      obtain ⟨k, key', a, b, v, e, hs, hk, ha, hv, _⟩ := scanMembers_cases hm
      simp only [openString, List.cons_append, List.cons.injEq, true_and, List.append_assoc] at hs
      subst hs
      rw [scanString_key hkey] at hk
      cases hk
      rw [skipWs_of_ws (Ws.refl _) (by simp [isWs])] at ha
      cases ha
      rw [skipWs_gap hgap rfl, scanValue_openString h] at hv
      cases hv

/-- Behind a sound member and its comma the reader goes on with the next one. -/
private theorem scanMembers_member (hgap : ∀ c ∈ gap, isWs c = true) {m : Member}
    (hm : m.Sound (fun n => d.accepts n = true)) {fuel : Nat} {r : Text}
    {x : List (Text × Value) × Text}
    (h : scanMembers d (fuel + 1)
      (renderMember gap m.spelled ++ ch ',' :: (gap ++ ch '"' :: r)) = some x) :
    ∃ y, scanMembers d fuel (ch '"' :: r) = some y := by
  obtain ⟨k, key, a, b, v, e, hs, hk, ha, hv, hend⟩ := scanMembers_cases h
  have hread := hm.2 (ch ',' :: (gap ++ ch '"' :: r))
  obtain ⟨c, w, hc, hcw, _⟩ := hread.value_head
  have hstop : NumberStop (ch ',' :: (gap ++ ch '"' :: r)) :=
    numberStop_of_ws (Ws.refl _) (Or.inl rfl)
  have hcomma : ∀ t, skipWs (ch ',' :: t) = ch ',' :: t :=
    fun t => skipWs_of_ws (Ws.refl _) (by simp [isWs])
  rw [render_append] at hs
  cases hs
  rw [scanString_key hm.1] at hk
  cases hk
  rw [skipWs_of_ws (Ws.refl _) (by simp [isWs])] at ha
  cases ha
  rw [hc, skipWs_gap hgap hcw, ← hc] at hv
  have hsome := scanValue_of_fuel hv (Nat.lt_succ_self _)
  rw [hread.scans hstop _ (Nat.lt_succ_self _)] at hsome
  cases hsome
  rw [hcomma] at hend
  rcases hend with ⟨ht, _⟩ | ⟨u, rest, hu, hrest, _⟩
  · simp at ht
  · cases hu
    rw [skipWs_gap hgap rfl] at hrest
    exact ⟨_, hrest⟩

/-- An object is refused when one of its string tokens is, whatever sound members
stand before it. -/
theorem scanText_openString (hgap : ∀ c ∈ gap, isWs c = true) {ms : List Member}
    (hms : ∀ m ∈ ms, m.Sound (fun n => d.accepts n = true)) {key junk : Text} (hkey : IsPlain key)
    (h : scanUnits junk = none) :
    scanText d (ch '{' :: (renderBefore gap ms ++ openString gap key junk)) = none := by
  have hmembers : (∃ r, renderBefore gap ms ++ openString gap key junk = ch '"' :: r) ∧
      ∀ fuel, scanMembers d fuel (renderBefore gap ms ++ openString gap key junk) = none := by
    induction ms with
    | nil => exact ⟨⟨_, rfl⟩, scanMembers_openString hgap hkey h⟩
    | cons m ms ih =>
      obtain ⟨⟨r, hr⟩, ih⟩ := ih fun x hx => hms x (List.mem_cons_of_mem _ hx)
      have he : renderBefore gap (m :: ms) ++ openString gap key junk =
          renderMember gap m.spelled ++ ch ',' :: (gap ++ ch '"' :: r) := by
        rw [← hr]
        simp only [renderBefore, List.flatMap_cons, List.append_assoc, List.cons_append]
      rw [hr] at ih
      rw [he]
      refine ⟨⟨_, rfl⟩, fun fuel => ?_⟩
      cases fuel with
      | zero => rw [scanMembers.eq_def]
      | succ fuel =>
        cases hm : scanMembers d (fuel + 1)
            (renderMember gap m.spelled ++ ch ',' :: (gap ++ ch '"' :: r)) with
        | none => rfl
        | some x =>
          obtain ⟨y, hy⟩ := scanMembers_member hgap (hms m (List.mem_cons_self ..)) hm
          rw [ih] at hy
          cases hy
  obtain ⟨⟨r, hr⟩, hnone⟩ := hmembers
  have hskip : skipWs (ch '{' :: (renderBefore gap ms ++ openString gap key junk)) =
      ch '{' :: (renderBefore gap ms ++ openString gap key junk) :=
    skipWs_of_ws (Ws.refl _) (by simp [isWs])
  have hbody : skipWs (renderBefore gap ms ++ openString gap key junk) =
      renderBefore gap ms ++ openString gap key junk := by
    rw [hr]
    exact skipWs_of_ws (Ws.refl _) (by simp [isWs])
  rw [scanText, hskip, scanValue_members hbody hr hnone]
  rfl

end Refused

section Occurrences

variable {gap pat : Text}

/-- None of the characters that a writer puts between keys and values. -/
def ForeignTo (gap pat : Text) : Prop :=
  pat ≠ [] ∧ ∀ c ∈ pat, c ∉ [ch '"', ch ':', ch ',', ch '{', ch '}'] ∧ c ∉ gap

instance (gap pat : Text) : Decidable (ForeignTo gap pat) :=
  inferInstanceAs (Decidable (_ ∧ ∀ c ∈ pat, _))

/-- A foreign pattern holds none of the marks. -/
private theorem ForeignTo.notMem (h : ForeignTo gap pat) {c : CodePoint}
    (hc : c ∈ [ch '"', ch ':', ch ',', ch '{', ch '}']) : c ∉ pat :=
  fun hp => (h.2 c hp).1 hc

/-- It does not begin in a gap. -/
private theorem ForeignTo.skip_gap (h : ForeignTo gap pat) {t : Text} (hi : pat <:+: gap ++ t) :
    pat <:+: t :=
  infix_append_of_disjoint h.1 (fun c hg hp => (h.2 c hp).2 hg) hi

/-- Nor at a mark. -/
private theorem ForeignTo.skip (h : ForeignTo gap pat) {c : CodePoint} {t : Text}
    (hc : c ∈ [ch '"', ch ':', ch ',', ch '{', ch '}']) (hi : pat <:+: c :: t) : pat <:+: t :=
  infix_append_of_disjoint (a := [c]) h.1
    (fun _ hd hp => h.notMem hc (List.mem_singleton.mp hd ▸ hp)) hi

/-- An occurrence in a member lies within its key or reaches into what follows the colon. -/
private theorem infix_renderMember (h : ForeignTo gap pat) {m : Text × Text} {t : Text}
    (hi : pat <:+: renderMember gap m ++ t) : pat <:+: m.1 ∨ pat <:+: m.2 ++ t := by
  have he : renderMember gap m ++ t =
      ch '"' :: (m.1 ++ ch '"' :: (ch ':' :: (gap ++ (m.2 ++ t)))) := by
    simp only [renderMember, List.cons_append, List.append_assoc]
  rw [he] at hi
  rcases infix_append_sep (h.notMem (by simp)) h.1 (h.skip (by simp) hi) with hk | hr
  · exact Or.inl hk
  · exact Or.inr (h.skip_gap (h.skip (by simp) hr))

/-- It stands in a key or a value of the members, or in what follows them. -/
private theorem infix_renderMembers (h : ForeignTo gap pat) {ms : List (Text × Text)} {t : Text}
    (hi : pat <:+: renderMembers gap ms ++ ch '}' :: t) :
    (∃ m ∈ ms, pat <:+: m.1 ∨ pat <:+: m.2) ∨ pat <:+: t := by
  induction ms with
  | nil => exact Or.inr (h.skip (by simp) hi)
  | cons m ms ih =>
    cases ms with
    | nil =>
      rw [renderMembers] at hi
      rcases infix_renderMember h hi with hk | hr
      · exact Or.inl ⟨m, List.mem_cons_self .., Or.inl hk⟩
      · rcases infix_append_sep (h.notMem (by simp)) h.1 hr with hv | ht
        · exact Or.inl ⟨m, List.mem_cons_self .., Or.inr hv⟩
        · exact Or.inr ht
    | cons m' ms =>
      rw [renderMembers, List.append_assoc, List.append_assoc] at hi
      rcases infix_renderMember h hi with hk | hr
      · exact Or.inl ⟨m, List.mem_cons_self .., Or.inl hk⟩
      · rcases infix_append_sep (h.notMem (by simp)) h.1 hr with hv | hr
        · exact Or.inl ⟨m, List.mem_cons_self .., Or.inr hv⟩
        · rcases ih (by simpa using h.skip_gap hr) with ⟨x, hx, hxi⟩ | ht
          · exact Or.inl ⟨x, List.mem_cons_of_mem _ hx, hxi⟩
          · exact Or.inr ht

/-- A foreign pattern occurs in a written object only within a key or a written value. -/
theorem infix_renderObject (h : ForeignTo gap pat) {ms : List (Text × Text)}
    (hi : pat <:+: renderObject gap ms) : ∃ m ∈ ms, pat <:+: m.1 ∨ pat <:+: m.2 := by
  rcases infix_renderMembers h (h.skip (by simp) hi) with hm | hnil
  · exact hm
  · exact absurd (List.infix_nil.mp hnil) h.1

/-- The characters of a written object. -/
theorem mem_renderObject {c : CodePoint} {ms : List (Text × Text)} (h : c ∈ renderObject gap ms) :
    c ∈ [ch '"', ch ':', ch ',', ch '{', ch '}'] ++ gap ∨ ∃ m ∈ ms, c ∈ m.1 ∨ c ∈ m.2 := by
  by_cases hc : c ∈ [ch '"', ch ':', ch ',', ch '{', ch '}'] ++ gap
  · exact Or.inl hc
  · rw [List.mem_append, not_or] at hc
    have hforeign : ForeignTo gap [c] :=
      ⟨List.cons_ne_nil c [], fun d hd => List.mem_singleton.mp hd ▸ hc⟩
    have hmem := infix_renderObject hforeign ((List.singleton_infix_iff c _).mpr h)
    simp only [List.singleton_infix_iff] at hmem
    exact Or.inr hmem

/-- Occurrences in an object that is cut inside a string token. -/
theorem infix_openString (h : ForeignTo gap pat) {ms : List Member} {key junk : Text}
    (hi : pat <:+: ch '{' :: (renderBefore gap ms ++ openString gap key junk)) :
    (∃ m ∈ ms, pat <:+: m.key ∨ pat <:+: m.written) ∨ pat <:+: key ∨ pat <:+: junk := by
  replace hi := h.skip (by simp) hi
  induction ms with
  | nil =>
    have he : renderBefore gap [] ++ openString gap key junk =
        renderMember gap (key, ch '"' :: junk) ++ [] := by
      simp [renderBefore, openString, renderMember]
    rw [he] at hi
    rcases infix_renderMember h hi with hk | hr
    · exact Or.inr (Or.inl hk)
    · rw [List.append_nil] at hr
      exact Or.inr (Or.inr (h.skip (by simp) hr))
  | cons m ms ih =>
    have he : renderBefore gap (m :: ms) ++ openString gap key junk =
        renderMember gap m.spelled ++ ch ',' :: (gap ++ (renderBefore gap ms ++
          openString gap key junk)) := by
      simp only [renderBefore, List.flatMap_cons, List.append_assoc, List.cons_append]
    rw [he] at hi
    rcases infix_renderMember h hi with hk | hr
    · exact Or.inl ⟨m, List.mem_cons_self .., Or.inl hk⟩
    · rcases infix_append_sep (h.notMem (by simp)) h.1 hr with hv | hr
      · exact Or.inl ⟨m, List.mem_cons_self .., Or.inr hv⟩
      · rcases ih (h.skip_gap hr) with ⟨x, hx, hxi⟩ | hrest
        · exact Or.inl ⟨x, List.mem_cons_of_mem _ hx, hxi⟩
        · exact Or.inr hrest

/-- Cutting a written object inside the string token of one of its members. -/
theorem renderObject_cut (gap : Text) (ms : List Member) (key a b : Text)
    (tail : List (Text × Text)) :
    ∃ rest, renderObject gap (ms.map Member.spelled ++ (key, ch '"' :: (a ++ b)) :: tail) =
      ch '{' :: (renderBefore gap ms ++ openString gap key a) ++ (b ++ rest) := by
  have hbody : ∃ rest, renderMembers gap
      (ms.map Member.spelled ++ (key, ch '"' :: (a ++ b)) :: tail) =
        renderBefore gap ms ++ openString gap key a ++ (b ++ rest) := by
    induction ms with
    | nil =>
      cases tail with
      | nil => exact ⟨[], by simp [renderMembers, renderMember, renderBefore, openString]⟩
      | cons t ts =>
        exact ⟨ch ',' :: gap ++ renderMembers gap (t :: ts),
          by simp [renderMembers, renderMember, renderBefore, openString]⟩
    | cons m ms ih =>
      obtain ⟨rest, hrest⟩ := ih
      refine ⟨rest, ?_⟩
      obtain ⟨x, xs, hx⟩ : ∃ x xs, ms.map Member.spelled ++ (key, ch '"' :: (a ++ b)) :: tail =
          x :: xs := by
        cases ms with
        | nil => exact ⟨_, _, rfl⟩
        | cons y ys => exact ⟨_, _, rfl⟩
      rw [List.map_cons, List.cons_append, hx, renderMembers, ← hx, hrest]
      simp only [renderBefore, List.flatMap_cons, List.append_assoc, List.cons_append]
  obtain ⟨rest, hrest⟩ := hbody
  refine ⟨rest ++ [ch '}'], ?_⟩
  rw [renderObject, hrest]
  simp only [List.cons_append, List.append_assoc]

end Occurrences

section Cut

variable {d : Dialect} {gap pat : Text} {write : CodePoint → Text}

/-- A written object whose text is cut at the first occurrence of a pattern is refused,
when a string token holds that occurrence and the members before it are sound. -/
theorem cut_in_string (hgap : ∀ c ∈ gap, isWs c = true) (hforeign : ForeignTo gap pat)
    (hesc : EscapesAround write pat) (hid : ∀ c ∈ pat, write c = [c])
    (hopen : ∀ a : Text, scanUnits (a.flatMap write) = none) {ms : List Member}
    (hms : ∀ m ∈ ms, m.Sound fun n => d.accepts n = true)
    (hclean : ∀ m ∈ ms, ¬ pat <:+: m.key ∧ ¬ pat <:+: m.written) {key : Text}
    (hkey : IsPlain key) (hkeypat : ¬ pat <:+: key) {s : Text} (hs : pat <:+: s)
    (tail : List (Text × Text)) : ∃ content rest,
      renderObject gap (ms.map Member.spelled ++
        (key, ch '"' :: s.flatMap write ++ [ch '"']) :: tail) =
          ch '{' :: content ++ pat ++ rest ∧
      ¬ pat <:+: ch '{' :: content ∧ scanText d (ch '{' :: content) = none := by
  obtain ⟨a, b, rfl, ha⟩ := exists_first_infix hforeign.1 hs
  have hpat : pat.flatMap write = pat := by
    rw [List.flatMap_congr hid]
    exact List.flatMap_singleton' pat
  have hwritten : ch '"' :: (a ++ pat ++ b).flatMap write ++ [ch '"'] =
      ch '"' :: (a.flatMap write ++ (pat ++ (b.flatMap write ++ [ch '"']))) := by
    simp only [List.flatMap_append, hpat, List.cons_append, List.append_assoc]
  obtain ⟨rest, hrest⟩ := renderObject_cut gap ms key (a.flatMap write)
    (pat ++ (b.flatMap write ++ [ch '"'])) tail
  refine ⟨renderBefore gap ms ++ openString gap key (a.flatMap write),
    b.flatMap write ++ [ch '"'] ++ rest, ?_, fun hi => ?_, ?_⟩
  · rw [hwritten, hrest, List.append_assoc, List.append_assoc, List.append_assoc]
  · rcases infix_openString hforeign hi with ⟨m, hm, hk | hw⟩ | hk | hj
    · exact (hclean m hm).1 hk
    · exact (hclean m hm).2 hw
    · exact hkeypat hk
    · rw [infix_flatMap_iff hforeign.1 hesc hid] at hj
      exact ha hj
  · exact scanText_openString hgap hms hkey (hopen a)

/-- The same for an object in which a string token is refused for its own characters and
the pattern follows: it may be cut anywhere behind that token. -/
theorem cut_behind_string (hgap : ∀ c ∈ gap, isWs c = true) (hforeign : ForeignTo gap pat)
    (hesc : EscapesAround write pat) (hid : ∀ c ∈ pat, write c = [c]) {ms : List Member}
    (hms : ∀ m ∈ ms, m.Sound fun n => d.accepts n = true)
    (hclean : ∀ m ∈ ms, ¬ pat <:+: m.key ∧ ¬ pat <:+: m.written) {key : Text}
    (hkey : IsPlain key) (hkeypat : ¬ pat <:+: key) {s : Text} (hs : ¬ pat <:+: s)
    (hrefused : ∀ r, scanUnits (s.flatMap write ++ r) = none) (tail : List (Text × Text)) :
    ∃ content rest,
      renderObject gap (ms.map Member.spelled ++
        (key, ch '"' :: s.flatMap write ++ [ch '"']) :: tail) ++ pat =
          ch '{' :: content ++ pat ++ rest ∧
      ¬ pat <:+: ch '{' :: content ∧ scanText d (ch '{' :: content) = none := by
  have hquote : ch '"' ∉ pat := fun h => (hforeign.2 _ h).1 (by simp)
  obtain ⟨after, hafter⟩ := renderObject_cut gap ms key (s.flatMap write) [ch '"'] tail
  obtain ⟨a, b, hab, ha⟩ := exists_first_infix hforeign.1 (List.suffix_append after pat).isInfix
  have hopen : openString gap key (s.flatMap write) ++ ch '"' :: a =
      openString gap key (s.flatMap write ++ ch '"' :: a) := by
    simp only [openString, List.cons_append, List.append_assoc]
  refine ⟨renderBefore gap ms ++ openString gap key (s.flatMap write ++ ch '"' :: a), b, ?_,
    fun hi => ?_, scanText_openString hgap hms hkey (hrefused _)⟩
  · rw [List.cons_append, hafter, ← hopen, List.append_assoc, List.append_assoc, hab]
    simp only [List.cons_append, List.nil_append, List.append_assoc]
  · rcases infix_openString hforeign hi with ⟨m, hm, hk | hw⟩ | hk | hj
    · exact (hclean m hm).1 hk
    · exact (hclean m hm).2 hw
    · exact hkeypat hk
    · rcases infix_append_sep hquote hforeign.1 hj with hj | hj
      · exact hs ((infix_flatMap_iff hforeign.1 hesc hid).mp hj)
      · exact ha hj

end Cut

end Ewts.Json
