import Ewts.Core.Json.Scanner

/-!
# The reader never runs out of fuel

Every call leaves a shorter rest, so any fuel above twice the length of the input
gives the same result: a text that is refused is refused for what it contains.
-/

namespace Ewts.Json

/-- Skipping white space adds nothing. -/
theorem length_skipWs_le (s : Text) : (skipWs s).length ≤ s.length :=
  (List.dropWhile_sublist _).length_le

/-- Prepending a unit to what was read leaves the same rest. -/
private theorem length_of_map_units {r t : Text} {u : StringUnit} {us : List StringUnit}
    (ih : ∀ {us t}, scanUnits r = some (us, t) → t.length < r.length)
    (h : (scanUnits r).map (fun x => (u :: x.1, x.2)) = some (us, t)) : t.length < r.length := by
  obtain ⟨x, hx, he⟩ := Option.map_eq_some_iff.mp h
  cases he
  exact ih hx

/-- A string token takes at least its closing quotation mark. -/
theorem length_of_scanUnits {s t : Text} {us : List StringUnit} (h : scanUnits s = some (us, t)) :
    t.length < s.length := by
  fun_induction scanUnits s generalizing us t with
  | case1 => cases h
  | case2 => cases h; exact Nat.lt_succ_self _
  | case3 => cases h
  | case4 => cases h
  | case5 =>
    rename_i ih
    have := length_of_map_units ih h
    simp only [List.length_cons]
    omega
  | case6 => cases h
  | case7 => cases h
  | case8 =>
    rename_i ih
    have := length_of_map_units ih h
    simp only [List.length_cons]
    omega
  | case9 => cases h
  | case10 =>
    rename_i ih
    exact Nat.lt_succ_of_lt (length_of_map_units ih h)

/-- A string takes at least its quote. -/
private theorem length_of_scanString {s t v : Text} (h : scanString s = some (v, t)) :
    t.length < s.length := by
  obtain ⟨r, hr, he⟩ := Option.map_eq_some_iff.mp h
  cases he
  exact length_of_scanUnits hr

/-- An integer takes at least one digit. -/
private theorem length_of_scanInt {s i t : Text} (h : scanInt s = some (i, t)) :
    t.length < s.length := by
  simp only [scanInt] at h
  split at h
  · cases h
  · rename_i c r hr
    have hlen := congrArg List.length hr
    have hds := (List.dropWhile_sublist CodePoint.isDigit (l := r)).length_le
    rw [List.length_drop, List.length_cons] at hlen
    split at h
    · cases h
      omega
    · split at h
      · cases h
        omega
      · cases h

private theorem length_scanFrac_le (s : Text) : (scanFrac s).2.length ≤ s.length := by
  cases s with
  | nil => exact Nat.le_refl _
  | cons c r =>
    have hds := (List.dropWhile_sublist CodePoint.isDigit (l := r)).length_le
    simp only [scanFrac]
    split
    · exact Nat.le_succ_of_le hds
    · exact Nat.le_refl _

private theorem length_scanSign_le (s : Text) : (scanSign s).2.length ≤ s.length := by
  cases s with
  | nil => exact Nat.le_refl _
  | cons c r =>
    simp only [scanSign]
    split
    · exact Nat.le_succ _
    · exact Nat.le_refl _

private theorem length_scanExp_le (s : Text) : (scanExp s).2.length ≤ s.length := by
  cases s with
  | nil => exact Nat.le_refl _
  | cons c r =>
    have hsign := length_scanSign_le r
    have hds := (List.dropWhile_sublist CodePoint.isDigit (l := (scanSign r).2)).length_le
    simp only [scanExp]
    split
    · exact Nat.le_succ_of_le (hds.trans hsign)
    · exact Nat.le_refl _

/-- A number takes at least its integer. -/
private theorem length_of_scanNumber {s t : Text} {n : Numeral} (h : scanNumber s = some (n, t)) :
    t.length < s.length := by
  obtain ⟨i, hi, he⟩ := Option.map_eq_some_iff.mp h
  have hint := length_of_scanInt hi
  have hfrac := length_scanFrac_le i.2
  have hexp := length_scanExp_le (scanFrac i.2).2
  cases he
  omega

/-- No literal name is empty. -/
private theorem literals_length_pos (d : Dialect) : ∀ l ∈ d.literals, 0 < l.1.length := by
  cases hd : d.constants <;> simp [Dialect.literals, hd, text]

/-- A literal takes its letters. -/
private theorem length_of_scanLiteral {d : Dialect} {s t : Text} {v : Value}
    (h : scanLiteral d s = some (v, t)) : t.length < s.length := by
  obtain ⟨l, hfind, he⟩ := Option.map_eq_some_iff.mp h
  have hp := List.find?_some hfind
  have hpos := literals_length_pos d l (List.mem_of_find?_eq_some hfind)
  have hle := (List.isPrefixOf_iff_prefix.mp hp).length_le
  cases he
  rw [List.length_drop]
  omega

/-- A value without parts takes at least one character. -/
private theorem length_of_scanAtom {d : Dialect} {s t : Text} {v : Value}
    (h : scanAtom d s = some (v, t)) : t.length < s.length := by
  simp only [scanAtom] at h
  split at h
  · rename_i r hl
    cases h
    exact length_of_scanLiteral hl
  · split at h
    · rename_i hn
      split at h
      · cases h
        exact length_of_scanNumber hn
      · cases h
    · cases h

section Inversion

variable {d : Dialect} {fuel : Nat} {s t : Text}

/-- Everything a successful reading of a value can have been. -/
theorem scanValue_cases {v : Value} (h : scanValue d (fuel + 1) s = some (v, t)) :
    (∃ r x, s = ch '"' :: r ∧ scanString r = some (x, t) ∧ v = .str x) ∨
    (∃ r, s = ch '{' :: r ∧ skipWs r = ch '}' :: t ∧ v = .obj []) ∨
    (∃ r c u ms, s = ch '{' :: r ∧ skipWs r = c :: u ∧ scanMembers d fuel (c :: u) = some (ms, t) ∧
      v = .obj ms) ∨
    (∃ r, s = ch '[' :: r ∧ skipWs r = ch ']' :: t ∧ v = .arr []) ∨
    (∃ r c u vs, s = ch '[' :: r ∧ skipWs r = c :: u ∧ c ≠ ch ']' ∧
      scanElements d fuel (c :: u) = some (vs, t) ∧ v = .arr vs) ∨
    ∃ c r, s = c :: r ∧ c ≠ ch '"' ∧ c ≠ ch '{' ∧ c ≠ ch '[' ∧ scanAtom d s = some (v, t) := by
  cases s with
  | nil =>
    rw [scanValue.eq_def] at h
    cases h
  | cons c r =>
    by_cases hq : c = ch '"'
    · rw [scanValue.eq_def] at h
      simp only [hq, ite_true, Option.map_eq_some_iff, Prod.mk.injEq] at h
      obtain ⟨x, hx, rfl, rfl⟩ := h
      exact Or.inl ⟨r, x.1, by rw [hq], hx, rfl⟩
    by_cases ho : c = ch '{'
    · have hne : ch '{' ≠ ch '"' := by simp
      subst ho
      rw [scanValue.eq_def] at h
      simp only [hne, ite_true, ite_false] at h
      cases hr : skipWs r with
      | nil => simp [hr] at h
      | cons e u =>
        by_cases he : e = ch '}'
        · simp only [hr, he, ite_true, Option.some.injEq, Prod.mk.injEq] at h
          exact Or.inr (Or.inl ⟨r, rfl, by rw [hr, he, h.2], h.1.symm⟩)
        · simp only [hr, he, ite_false, Option.map_eq_some_iff, Prod.mk.injEq] at h
          obtain ⟨x, hx, rfl, rfl⟩ := h
          exact Or.inr (Or.inr (Or.inl ⟨r, e, u, x.1, rfl, hr, hx, rfl⟩))
    by_cases ha : c = ch '['
    · have hne : ch '[' ≠ ch '"' ∧ ch '[' ≠ ch '{' := by simp
      subst ha
      rw [scanValue.eq_def] at h
      simp only [hne.1, hne.2, ite_true, ite_false] at h
      cases hr : skipWs r with
      | nil => simp [hr] at h
      | cons e u =>
        by_cases he : e = ch ']'
        · simp only [hr, he, ite_true, Option.some.injEq, Prod.mk.injEq] at h
          exact Or.inr (Or.inr (Or.inr (Or.inl ⟨r, rfl, by rw [hr, he, h.2], h.1.symm⟩)))
        · simp only [hr, he, ite_false, Option.map_eq_some_iff, Prod.mk.injEq] at h
          obtain ⟨x, hx, rfl, rfl⟩ := h
          exact Or.inr (Or.inr (Or.inr (Or.inr (Or.inl ⟨r, e, u, x.1, rfl, hr, he, hx, rfl⟩))))
    · rw [scanValue_atom hq ho ha] at h
      exact Or.inr (Or.inr (Or.inr (Or.inr (Or.inr ⟨c, r, rfl, hq, ho, ha, h⟩))))

/-- Everything a successful reading of members can have been. -/
theorem scanMembers_cases {ms : List (Text × Value)}
    (h : scanMembers d (fuel + 1) s = some (ms, t)) :
    ∃ k key a b v e, s = ch '"' :: k ∧ scanString k = some (key, a) ∧ skipWs a = ch ':' :: b ∧
      scanValue d fuel (skipWs b) = some (v, e) ∧
      (skipWs e = ch '}' :: t ∧ ms = [(key, v)] ∨
        ∃ u rest, skipWs e = ch ',' :: u ∧ scanMembers d fuel (skipWs u) = some (rest, t) ∧
          ms = (key, v) :: rest) := by
  rw [scanMembers.eq_def] at h
  simp only at h
  split at h
  · cases h
  · rename_i q k
    split at h
    · rename_i hq
      split at h
      · cases h
      · rename_i key a hk
        split at h
        · cases h
        · rename_i c b ha
          split at h
          · rename_i hc
            split at h
            · cases h
            · rename_i v e hv
              refine ⟨k, key, a, b, v, e, by rw [hq], hk, by rw [ha, hc], hv, ?_⟩
              split at h
              · cases h
              · rename_i x u he
                split at h
                · rename_i hx
                  cases h
                  exact Or.inl ⟨by rw [he, hx], rfl⟩
                · split at h
                  · rename_i hx
                    obtain ⟨y, hy, hyt⟩ := Option.map_eq_some_iff.mp h
                    cases hyt
                    exact Or.inr ⟨u, y.1, by rw [he, hx], hy, rfl⟩
                  · cases h
          · cases h
    · cases h

/-- Everything a successful reading of elements can have been. -/
theorem scanElements_cases {vs : List Value} (h : scanElements d (fuel + 1) s = some (vs, t)) :
    ∃ v e, scanValue d fuel s = some (v, e) ∧
      (skipWs e = ch ']' :: t ∧ vs = [v] ∨
        ∃ u rest, skipWs e = ch ',' :: u ∧ scanElements d fuel (skipWs u) = some (rest, t) ∧
          vs = v :: rest) := by
  rw [scanElements.eq_def] at h
  simp only at h
  split at h
  · cases h
  · rename_i v e hv
    refine ⟨v, e, hv, ?_⟩
    split at h
    · cases h
    · rename_i c u he
      split at h
      · rename_i hc
        cases h
        exact Or.inl ⟨by rw [he, hc], rfl⟩
      · split at h
        · rename_i hc
          obtain ⟨x, hx, hxt⟩ := Option.map_eq_some_iff.mp h
          cases hxt
          exact Or.inr ⟨u, x.1, by rw [he, hc], hx, rfl⟩
        · cases h

end Inversion

/-- Without fuel nothing is read. -/
private theorem scan_zero (d : Dialect) (s : Text) :
    scanValue d 0 s = none ∧ scanMembers d 0 s = none ∧ scanElements d 0 s = none :=
  ⟨by rw [scanValue.eq_def], by rw [scanMembers.eq_def], by rw [scanElements.eq_def]⟩

/-- A character behind white space shortens the text. -/
private theorem length_of_skipWs {s t : Text} {c : CodePoint} (h : skipWs s = c :: t) :
    t.length < s.length := by
  have hle := length_skipWs_le s
  rw [h, List.length_cons] at hle
  exact hle

/-- What a reading leaves is shorter than what it was given. -/
private def Progress (d : Dialect) (fuel : Nat) : Prop :=
  (∀ s v t, scanValue d fuel s = some (v, t) → t.length < s.length) ∧
  (∀ s ms t, scanMembers d fuel s = some (ms, t) → t.length < s.length) ∧
  (∀ s vs t, scanElements d fuel s = some (vs, t) → t.length < s.length)

/-- Whatever is read shortens the text, by induction on the fuel. -/
private theorem progress (d : Dialect) (fuel : Nat) : Progress d fuel := by
  induction fuel with
  | zero =>
    refine ⟨fun s v t h => ?_, fun s ms t h => ?_, fun s vs t h => ?_⟩
    · rw [(scan_zero d s).1] at h
      cases h
    · rw [(scan_zero d s).2.1] at h
      cases h
    · rw [(scan_zero d s).2.2] at h
      cases h
  | succ fuel ih =>
    obtain ⟨ihv, ihm, ihe⟩ := ih
    refine ⟨fun s v t h => ?_, fun s ms t h => ?_, fun s vs t h => ?_⟩
    · rcases scanValue_cases h with ⟨r, x, rfl, hx, _⟩ | ⟨r, rfl, hr, _⟩ |
        ⟨r, c, u, ms, rfl, hr, hm, _⟩ | ⟨r, rfl, hr, _⟩ | ⟨r, c, u, vs, rfl, hr, _, hvs, _⟩ |
        ⟨c, r, rfl, _, _, _, ha⟩
      · exact Nat.lt_succ_of_lt (length_of_scanString hx)
      · exact Nat.lt_succ_of_lt (length_of_skipWs hr)
      · have hu := length_of_skipWs hr
        have ht := ihm _ _ _ hm
        simp only [List.length_cons] at ht ⊢
        omega
      · exact Nat.lt_succ_of_lt (length_of_skipWs hr)
      · have hu := length_of_skipWs hr
        have ht := ihe _ _ _ hvs
        simp only [List.length_cons] at ht ⊢
        omega
      · exact length_of_scanAtom ha
    · obtain ⟨k, key, a, b, v, e, rfl, hk, ha, hv, hend⟩ := scanMembers_cases h
      have hlk := length_of_scanString hk
      have hla := length_of_skipWs ha
      have hlb := length_skipWs_le b
      have hle := ihv _ _ _ hv
      simp only [List.length_cons]
      rcases hend with ⟨ht, _⟩ | ⟨u, rest, hu, hrest, _⟩
      · have := length_of_skipWs ht
        omega
      · have hlu := length_of_skipWs hu
        have hlr := ihm _ _ _ hrest
        have := length_skipWs_le u
        omega
    · obtain ⟨v, e, hv, hend⟩ := scanElements_cases h
      have hle := ihv _ _ _ hv
      rcases hend with ⟨ht, _⟩ | ⟨u, rest, hu, hrest, _⟩
      · have := length_of_skipWs ht
        omega
      · have hlu := length_of_skipWs hu
        have hlr := ihe _ _ _ hrest
        have := length_skipWs_le u
        omega

/-- A reading succeeds under every sufficient fuel once it succeeds under one. -/
private def Stable (d : Dialect) (fuel : Nat) : Prop :=
  (∀ s v t, scanValue d fuel s = some (v, t) → ∀ fuel', 2 * s.length < fuel' →
    scanValue d fuel' s = some (v, t)) ∧
  (∀ s ms t, scanMembers d fuel s = some (ms, t) → ∀ fuel', 2 * s.length < fuel' →
    scanMembers d fuel' s = some (ms, t)) ∧
  (∀ s vs t, scanElements d fuel s = some (vs, t) → ∀ fuel', 2 * s.length + 1 < fuel' →
    scanElements d fuel' s = some (vs, t))

/-- Fuel for twice the text is always enough, by induction on the fuel. -/
private theorem stable (d : Dialect) (fuel : Nat) : Stable d fuel := by
  induction fuel with
  | zero =>
    refine ⟨fun s v t h => ?_, fun s ms t h => ?_, fun s vs t h => ?_⟩
    · rw [(scan_zero d s).1] at h
      cases h
    · rw [(scan_zero d s).2.1] at h
      cases h
    · rw [(scan_zero d s).2.2] at h
      cases h
  | succ fuel ih =>
    obtain ⟨ihv, ihm, ihe⟩ := ih
    obtain ⟨hpv, hpm, hpe⟩ := progress d fuel
    refine ⟨fun s v t h fuel' hf => ?_, fun s ms t h fuel' hf => ?_,
      fun s vs t h fuel' hf => ?_⟩ <;>
      obtain ⟨fuel', rfl⟩ := Nat.exists_eq_add_of_lt (Nat.zero_lt_of_lt hf)
    · rcases scanValue_cases h with ⟨r, x, rfl, hx, rfl⟩ | ⟨r, rfl, hr, rfl⟩ |
        ⟨r, c, u, ms, rfl, hr, hm, rfl⟩ | ⟨r, rfl, hr, rfl⟩ | ⟨r, c, u, vs, rfl, hr, hc, hvs, rfl⟩ |
        ⟨c, r, rfl, hq, ho, ha, hatom⟩
      · exact scanValue_str hx
      · exact scanValue_emptyObj hr
      · have hu := length_of_skipWs hr
        simp only [List.length_cons] at hf
        have hm' := ihm _ _ _ hm (0 + fuel') (by simp only [List.length_cons]; omega)
        cases fuel with
        | zero =>
          rw [(scan_zero d _).2.1] at hm
          cases hm
        | succ fuel =>
          obtain ⟨k, _, _, _, _, _, hk, _⟩ := scanMembers_cases hm
          apply scanValue_obj (hr.trans hk)
          rw [hr]
          exact hm'
      · exact scanValue_emptyArr hr
      · have hu := length_of_skipWs hr
        simp only [List.length_cons] at hf
        have he := ihe _ _ _ hvs (0 + fuel') (by simp only [List.length_cons]; omega)
        apply scanValue_arr hr hc
        rw [hr]
        exact he
      · rw [scanValue_atom hq ho ha]
        exact hatom
    · obtain ⟨k, key, a, b, v, e, rfl, hk, ha, hv, hend⟩ := scanMembers_cases h
      have hlk := length_of_scanString hk
      have hla := length_of_skipWs ha
      have hlb := length_skipWs_le b
      have hle := hpv _ _ _ hv
      simp only [List.length_cons] at hf
      have hv' := ihv _ _ _ hv (0 + fuel') (by omega)
      rcases hend with ⟨ht, rfl⟩ | ⟨u, rest, hu, hrest, rfl⟩
      · exact scanMembers_last hk ha hv' ht
      · have hlu := length_of_skipWs hu
        have := length_skipWs_le u
        exact scanMembers_next hk ha hv' hu (ihm _ _ _ hrest _ (by omega))
    · obtain ⟨v, e, hv, hend⟩ := scanElements_cases h
      have hle := hpv _ _ _ hv
      have hv' := ihv _ _ _ hv (0 + fuel') (by omega)
      rcases hend with ⟨ht, rfl⟩ | ⟨u, rest, hu, hrest, rfl⟩
      · exact scanElements_last hv' ht
      · have hlu := length_of_skipWs hu
        have := length_skipWs_le u
        exact scanElements_next hv' hu (ihe _ _ _ hrest _ (by omega))

/-- What some fuel reads, every sufficient fuel reads. -/
theorem scanValue_of_fuel {d : Dialect} {s t : Text} {v : Value} {fuel fuel' : Nat}
    (h : scanValue d fuel s = some (v, t)) (hf : 2 * s.length < fuel') :
    scanValue d fuel' s = some (v, t) :=
  (stable d fuel).1 s v t h fuel' hf

/-- Above twice the length of the input the fuel has no influence. -/
theorem scanValue_fuel (d : Dialect) {s : Text} {fuel fuel' : Nat} (h : 2 * s.length < fuel)
    (h' : 2 * s.length < fuel') : scanValue d fuel s = scanValue d fuel' s := by
  cases hv : scanValue d fuel s with
  | some r => exact (scanValue_of_fuel hv h').symm
  | none =>
    cases hv' : scanValue d fuel' s with
    | none => rfl
    | some r =>
      rw [scanValue_of_fuel hv' h] at hv
      cases hv

/-- A text is refused only if no amount of fuel reads it. -/
theorem scanText_eq_of_fuel (d : Dialect) (s : Text) {fuel : Nat} (h : 2 * s.length < fuel) :
    scanText d s = endOfText (scanValue d fuel (skipWs s)) := by
  have hle := length_skipWs_le s
  have hfuel : scanValue d (2 * s.length + 1) (skipWs s) = scanValue d fuel (skipWs s) :=
    scanValue_fuel d (by omega) (by omega)
  rw [← hfuel]
  rfl

end Ewts.Json
