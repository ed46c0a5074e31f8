import Mathlib.Data.List.Infix
import Mathlib.Data.Nat.Find
import Mathlib.Tactic.Common

/-!
# Leftmost occurrences of a pattern

`List.dropInfix?` splits a list around the first occurrence of a pattern. These
lemmas compute it on concatenations: an occurrence cannot run across a character
that the pattern does not contain after its head.
-/

namespace Ewts

variable {α : Type*} [DecidableEq α]

/-- The split of `dropInfix?` is an occurrence, and none starts earlier. -/
theorem dropInfix?_eq_some_iff_append {l i p s : List α} :
    l.dropInfix? i = some (p, s) ↔
      l = p ++ i ++ s ∧ ∀ p' s', l = p' ++ i ++ s' → p.length ≤ p'.length := by
  rw [List.dropInfix?_eq_some_iff]
  constructor
  · rintro ⟨⟨i', hl, hi⟩, hmin⟩
    rw [eq_of_beq hi] at hl
    exact ⟨hl, fun p' s' h => hmin p' i s' h (beq_self_eq_true i)⟩
  · rintro ⟨hl, hmin⟩
    refine ⟨⟨i, hl, beq_self_eq_true i⟩, fun p' i' s' h hi => hmin p' s' ?_⟩
    rw [← eq_of_beq hi]
    exact h

/-- An occurrence is always found. -/
theorem dropInfix?_isSome_of_infix {l i : List α} (h : i <:+: l) :
    ∃ p s, l.dropInfix? i = some (p, s) := by
  classical
  obtain ⟨p, s, hl⟩ := h
  let Starts : Nat → Prop := fun n => ∃ p s, l = p ++ i ++ s ∧ p.length = n
  have hex : ∃ n, Starts n := ⟨p.length, p, s, hl.symm, rfl⟩
  obtain ⟨p', s', hl', hn⟩ := Nat.find_spec hex
  refine ⟨p', s', dropInfix?_eq_some_iff_append.mpr ⟨hl', fun q t hq => ?_⟩⟩
  rw [hn]
  exact Nat.find_min' hex ⟨q, t, hq, rfl⟩

omit [DecidableEq α] in
/-- An occurrence in `a ++ x :: b` starts after `a`, or ends within it, when `x`
can only be the pattern's first character. -/
theorem infix_append_cons {pat a b : List α} {x : α} (hx : x ∉ pat.tail)
    (h : pat <:+: a ++ x :: b) : pat <:+: a ∨ pat <:+: x :: b := by
  obtain ⟨p, s, he⟩ := h
  rcases List.append_eq_append_iff.mp he with ⟨c, ha, _⟩ | ⟨c, hp, hb⟩
  · exact Or.inl ⟨p, c, ha.symm⟩
  · rcases List.append_eq_append_iff.mp hp with ⟨d, ha, hpat⟩ | ⟨d, hpa, hc⟩
    · -- The occurrence starts inside `a` and reaches `x` only if it starts there.
      cases d with
      | nil =>
        rw [List.nil_append] at hpat
        exact Or.inr ⟨[], s, by rw [List.nil_append, hpat, hb]⟩
      | cons y d =>
        cases c with
        | nil => exact Or.inl ⟨p, [], by rw [ha, hpat, List.append_nil, List.append_nil]⟩
        | cons z c =>
          have hz : x = z := (List.cons.inj hb).1
          exact absurd (by rw [hpat, hz]; simp) hx
    · exact Or.inr ⟨d, s, by rw [← hc, hb]⟩

omit [DecidableEq α] in
/-- A separator that is not in the pattern splits its occurrences. -/
theorem infix_append_sep {pat a b : List α} {x : α} (hx : x ∉ pat) (hne : pat ≠ [])
    (h : pat <:+: a ++ x :: b) : pat <:+: a ∨ pat <:+: b := by
  rcases infix_append_cons (fun hm => hx (List.mem_of_mem_tail hm)) h with h | h
  · exact Or.inl h
  · rcases List.infix_cons_iff.mp h with hp | hi
    · rcases List.prefix_cons_iff.mp hp with rfl | ⟨t, rfl, _⟩
      · exact absurd rfl hne
      · exact absurd (List.mem_cons_self ..) hx
    · exact Or.inr hi

omit [DecidableEq α] in
/-- Characters that are not in the pattern cannot take part in an occurrence. -/
theorem infix_append_of_disjoint {pat a b : List α} (hne : pat ≠ []) (ha : ∀ x ∈ a, x ∉ pat)
    (h : pat <:+: a ++ b) : pat <:+: b := by
  induction a with
  | nil => exact h
  | cons x a ih =>
    have hx : x ∉ pat := ha x (List.mem_cons_self ..)
    refine ih (fun y hy => ha y (List.mem_cons_of_mem _ hy)) ?_
    rcases List.infix_cons_iff.mp h with hp | hi
    · rcases List.prefix_cons_iff.mp hp with rfl | ⟨t, rfl, _⟩
      · exact absurd rfl hne
      · exact absurd (List.mem_cons_self ..) hx
    · exact hi

section Escaping

variable {β : Type*} {f : β → List β} {pat : List β}

/-- `f` copies a character or replaces it by characters foreign to the pattern. -/
def EscapesAround (f : β → List β) (pat : List β) : Prop :=
  ∀ c, f c = [c] ∨ f c ≠ [] ∧ ∀ x ∈ f c, x ∉ pat

/-- What the pattern shares with an escaped text it shares with the text. -/
private theorem prefix_of_prefix_flatMap (hf : EscapesAround f pat) {q : List β} (hq : q ⊆ pat)
    {s : List β} (h : q <+: s.flatMap f) : q <+: s := by
  induction s generalizing q with
  | nil => exact h
  | cons c s ih =>
    cases q with
    | nil => exact List.nil_prefix
    | cons x q =>
      rw [List.flatMap_cons] at h
      rcases hf c with hc | ⟨hne, hout⟩
      · rw [hc] at h
        obtain ⟨rfl, hq'⟩ := List.cons_prefix_cons.mp h
        exact List.cons_prefix_cons.mpr ⟨rfl, ih (List.subset_of_cons_subset hq) hq'⟩
      · obtain ⟨y, r, hy⟩ := List.exists_cons_of_ne_nil hne
        rw [hy] at h
        obtain ⟨rfl, _⟩ := List.cons_prefix_cons.mp h
        refine absurd (hq (List.mem_cons_self ..)) (hout x ?_)
        rw [hy]
        exact List.mem_cons_self ..

/-- Escaping neither creates nor hides an occurrence of a pattern it copies. -/
theorem infix_flatMap_iff (hne : pat ≠ []) (hf : EscapesAround f pat)
    (hid : ∀ c ∈ pat, f c = [c]) {s : List β} : pat <:+: s.flatMap f ↔ pat <:+: s := by
  constructor
  · intro h
    induction s with
    | nil => exact h
    | cons c s ih =>
      rw [List.flatMap_cons] at h
      rcases hf c with hc | ⟨_, hout⟩
      · rw [hc] at h
        rcases List.infix_cons_iff.mp h with hp | hi
        · have hs : pat <+: (c :: s).flatMap f := by rw [List.flatMap_cons, hc]; exact hp
          exact (prefix_of_prefix_flatMap hf (List.Subset.refl pat) hs).isInfix
        · exact (ih hi).trans (List.infix_cons (List.infix_refl s))
      · exact (ih (infix_append_of_disjoint hne hout h)).trans (List.infix_cons (List.infix_refl s))
  · rintro ⟨a, b, rfl⟩
    have hpat : pat.flatMap f = pat := by
      rw [List.flatMap_congr hid]
      exact List.flatMap_singleton' pat
    exact ⟨a.flatMap f, b.flatMap f, by simp only [List.flatMap_append, hpat]⟩

end Escaping

/-- The first occurrence of a pattern whose head does not recur, behind a text
that does not contain it. -/
theorem dropInfix?_append {x : α} {tl a b : List α} (hx : x ∉ tl)
    (ha : ¬ (x :: tl) <:+: a) : (a ++ x :: tl ++ b).dropInfix? (x :: tl) = some (a, b) := by
  refine dropInfix?_eq_some_iff_append.mpr ⟨rfl, fun p' s' h => ?_⟩
  by_contra hlt
  have hlen : p'.length < a.length := Nat.lt_of_not_le hlt
  -- A shorter prefix leaves an occurrence starting inside `a`.
  obtain ⟨c, hc⟩ : ∃ c, a = p' ++ c := by
    have hp : p' <+: a ++ x :: tl ++ b := ⟨(x :: tl) ++ s', by rw [h, List.append_assoc]⟩
    have ha' : a <+: a ++ x :: tl ++ b := ⟨(x :: tl) ++ b, by rw [List.append_assoc]⟩
    obtain ⟨c, hc⟩ := List.prefix_of_prefix_length_le hp ha' (Nat.le_of_lt hlen)
    exact ⟨c, hc.symm⟩
  have hne : c ≠ [] := by
    rintro rfl
    rw [List.append_nil] at hc
    rw [hc] at hlen
    exact Nat.lt_irrefl _ hlen
  have hocc : (x :: tl) ++ s' = c ++ x :: (tl ++ b) := by
    rw [hc] at h
    simpa only [List.append_assoc, List.append_cancel_left_eq, List.cons_append,
      List.append_eq] using h.symm
  cases c with
  | nil => exact hne rfl
  | cons y c =>
    have hy : x :: (tl ++ s') = y :: (c ++ x :: (tl ++ b)) := hocc
    obtain ⟨rfl, htl⟩ := List.cons.inj hy
    rcases List.append_eq_append_iff.mp htl with ⟨d, hd, _⟩ | ⟨d, hd, hs⟩
    · exact ha (hc ▸ ⟨p', d, by simp [hd]⟩)
    · cases d with
      | nil => exact ha (hc ▸ ⟨p', [], by simp [hd]⟩)
      | cons z d =>
        have hz : x = z := (List.cons.inj hs).1
        exact hx (by simp [hd, hz])

/-- Behind a text that does not contain it, such a pattern does not start earlier. -/
theorem not_prefix_append {x : α} {tl a b : List α} (hx : x ∉ tl) (ha : ¬ (x :: tl) <:+: a)
    (hne : a ≠ []) : ¬ (x :: tl) <+: a ++ x :: tl ++ b := by
  rintro ⟨s, hs⟩
  obtain ⟨_, hmin⟩ := dropInfix?_eq_some_iff_append.mp (dropInfix?_append (b := b) hx ha)
  have hlen := hmin [] s hs.symm
  exact hne (List.eq_nil_of_length_eq_zero (Nat.le_zero.mp hlen))

/-- The first occurrence of a pattern has none before it. -/
theorem exists_first_infix {pat l : List α} (hne : pat ≠ []) (h : pat <:+: l) :
    ∃ a b, l = a ++ pat ++ b ∧ ¬ pat <:+: a := by
  obtain ⟨a, b, hd⟩ := dropInfix?_isSome_of_infix h
  obtain ⟨hl, hmin⟩ := dropInfix?_eq_some_iff_append.mp hd
  refine ⟨a, b, hl, ?_⟩
  rintro ⟨u, v, rfl⟩
  have hlen := hmin u (v ++ pat ++ b) (by rw [hl]; simp only [List.append_assoc])
  have hpos := List.length_pos_iff.mpr hne
  simp only [List.length_append] at hlen
  omega

/-- A pattern that does not occur is not found. -/
theorem dropInfix?_eq_none {l i : List α} (h : ¬ i <:+: l) : l.dropInfix? i = none := by
  cases hd : l.dropInfix? i with
  | none => rfl
  | some r =>
    obtain ⟨p, s⟩ := r
    exact absurd ⟨p, s, (dropInfix?_eq_some_iff_append.mp hd).1.symm⟩ h

/-- Some occurrence of `i` has `e` behind it when the first one has. -/
theorem bracketed_iff {l i e p rest : List α} (h : l.dropInfix? i = some (p, rest)) :
    (∃ a b c, l = a ++ i ++ b ++ e ++ c) ↔ e <:+: rest := by
  obtain ⟨hl, hmin⟩ := dropInfix?_eq_some_iff_append.mp h
  constructor
  · rintro ⟨a, b, c, heq⟩
    have hle : p.length ≤ a.length := hmin a (b ++ e ++ c) (by rw [heq]; simp)
    have hrest : rest = l.drop (p.length + i.length) := by
      rw [hl, ← List.length_append, List.drop_left]
    have hsuffix : (b ++ e ++ c) <:+ l.drop (p.length + i.length) := by
      have hdrop : b ++ e ++ c = l.drop (a.length + i.length) := by
        have hassoc : l = (a ++ i) ++ (b ++ e ++ c) := by
          rw [heq]
          simp only [List.append_assoc]
        rw [hassoc, ← List.length_append, List.drop_left]
      rw [hdrop]
      exact List.drop_suffix_drop_left l (Nat.add_le_add_right hle _)
    rw [hrest]
    exact List.IsInfix.trans ⟨b, c, rfl⟩ hsuffix.isInfix
  · rintro ⟨b, c, hbc⟩
    exact ⟨p, b, c, by rw [hl, ← hbc]; simp⟩

omit [DecidableEq α] in
/-- A prefix ends in front of elements that it does not have. -/
theorem prefix_append_iff_of_disjoint {p a b : List α} (h : ∀ c ∈ b, c ∉ p) :
    p <+: a ++ b ↔ p <+: a := by
  constructor
  · intro hp
    rcases List.prefix_or_prefix_of_prefix hp (List.prefix_append a b) with hpa | ⟨w, rfl⟩
    · exact hpa
    · have hw : w <+: b := (List.prefix_append_right_inj a).mp hp
      cases w with
      | nil => simp
      | cons c w =>
        have hc : c ∈ b := hw.subset (List.mem_cons_self ..)
        exact absurd (List.mem_append_right a (List.mem_cons_self ..)) (h c hc)
  · exact fun hp => hp.trans (List.prefix_append a b)

omit [DecidableEq α] in
/-- A label between two texts is found again, when no shift of it that stays within its own
length meets it. -/
theorem append_label_inj {label a a' b b' : List α}
    (hb : ∀ k, 0 < k → k < label.length → ¬ label <+: label.drop k ++ b)
    (hb' : ∀ k, 0 < k → k < label.length → ¬ label <+: label.drop k ++ b')
    (hlen : a.length < a'.length + label.length) (hlen' : a'.length < a.length + label.length)
    (h : a ++ label ++ b = a' ++ label ++ b') : a = a' ∧ b = b' := by
  -- The longer front ends with a shift of the label.
  have hshift : ∀ {a a' b b' : List α}, (∀ k, 0 < k → k < label.length →
      ¬ label <+: label.drop k ++ b) → a'.length < a.length + label.length →
      a.length ≤ a'.length → a ++ label ++ b = a' ++ label ++ b' → a = a' := by
    intro a a' b b' hb hlen hle h
    rw [List.append_assoc, List.append_assoc] at h
    obtain ⟨w, rfl⟩ : a <+: a' :=
      List.prefix_of_prefix_length_le (List.prefix_append a _) ⟨_, h.symm⟩ hle
    rw [List.append_assoc] at h
    have hw : label ++ b = w ++ (label ++ b') := List.append_cancel_left h
    rw [List.length_append] at hlen
    have hdrop := congrArg (List.drop w.length) hw
    rw [List.drop_left, List.drop_append_of_le_length (by omega)] at hdrop
    have hnot := hb w.length
    rw [hdrop] at hnot
    have hzero : w.length = 0 := by
      by_contra hne
      exact hnot (by omega) (by omega) (List.prefix_append label b')
    rw [List.length_eq_zero_iff.mp hzero, List.append_nil]
  have ha : a = a' := by
    rcases Nat.le_total a.length a'.length with hle | hle
    · exact hshift hb hlen' hle h
    · exact (hshift hb' hlen hle h.symm).symm
  subst ha
  exact ⟨rfl, List.append_cancel_left h⟩

/-- When a text holds its closing pattern at the end only, nothing follows a bracketed part. -/
theorem eq_nil_of_bracketed {x y : α} {i e p body a b c : List α} (hx : x ∉ i) (hy : y ∉ e)
    (hp : ¬ (x :: i) <:+: p) (hbody : ¬ (y :: e) <:+: body)
    (h : p ++ x :: i ++ (body ++ y :: e) = a ++ x :: i ++ (b ++ y :: e ++ c)) : c = [] := by
  obtain ⟨_, hfirst⟩ := dropInfix?_eq_some_iff_append.mp
    (dropInfix?_append (b := body ++ y :: e) hx hp)
  have hle : p.length ≤ a.length := hfirst a (b ++ y :: e ++ c) h
  have hlen := congrArg List.length h
  -- The part behind the opening pattern ends like the text.
  obtain ⟨d, hd⟩ : b ++ y :: e ++ c <:+ body ++ y :: e := by
    apply List.suffix_of_suffix_length_le (List.suffix_append (a ++ x :: i) _)
    · rw [← h]
      exact List.suffix_append _ _
    · simp only [List.length_append, List.length_cons] at hlen ⊢
      omega
  obtain ⟨_, hlast⟩ := dropInfix?_eq_some_iff_append.mp (dropInfix?_append (b := []) hy hbody)
  have hle' : body.length ≤ (d ++ b).length := by
    apply hlast (d ++ b) c
    rw [List.append_nil, ← hd]
    simp only [List.append_assoc]
  have hlen' := congrArg List.length hd
  simp only [List.length_append, List.length_cons] at hle' hlen'
  exact List.eq_nil_of_length_eq_zero (by omega)

end Ewts
