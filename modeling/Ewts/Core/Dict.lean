import Mathlib.Data.List.Sort

/-!
# Insertion-ordered dictionaries

A `dict` of Python: pairs in the order in which their keys came first. Pairs that are sorted
by a number keep their order where the numbers agree, so the first one of a number stays.
-/

namespace Ewts

universe u v

variable {κ : Type u} {β : Type v}

/-- A dictionary in insertion order. -/
abbrev Dict (κ : Type u) (β : Type v) := List (κ × β)

variable [DecidableEq κ]

/-- `d[k] = v`. -/
def Dict.set (k : κ) (v : β) : Dict κ β → Dict κ β
  | [] => [(k, v)]
  | e :: d => if e.1 = k then (k, v) :: d else e :: Dict.set k v d

/-- `d.get(k)`. -/
def Dict.get (d : Dict κ β) (k : κ) : Option β := (d.find? (·.1 = k)).map Prod.snd

/-- `{k: v for k, v in l}`. -/
def Dict.ofPairs (l : List (κ × β)) : Dict κ β := l.foldl (fun d e => d.set e.1 e.2) []

/-- `for k, v in l: d.setdefault(k, []).append(v)`. -/
def Dict.group (l : List (κ × β)) : Dict κ (List β) :=
  l.foldl (fun d e => d.set e.1 ((d.get e.1).getD [] ++ [e.2])) []

variable {k k' : κ} {v : β} {d : Dict κ β}

@[simp] theorem Dict.get_set : (d.set k v).get k' = if k' = k then some v else d.get k' := by
  induction d with
  | nil =>
    by_cases h : k = k'
    · simp [Dict.set, Dict.get, h]
    · simp [Dict.set, Dict.get, h, Ne.symm h]
  | cons e d ih =>
    unfold Dict.set
    by_cases he : e.1 = k
    · rw [if_pos he]
      by_cases h : k' = k
      · simp [Dict.get, h]
      · have hk : k ≠ k' := Ne.symm h
        simp [Dict.get, h, hk, he]
    · rw [if_neg he]
      by_cases he' : e.1 = k'
      · have h : k' ≠ k := fun h => he (he'.trans h)
        simp [Dict.get, he', h]
      · simpa [Dict.get, he'] using ih

/-- A dictionary of different keys finds what the list of its pairs holds first. -/
theorem Dict.get_ofPairs {l : List (κ × β)} (h : (l.map Prod.fst).Nodup) (k : κ) :
    (Dict.ofPairs l).get k = (l.find? (·.1 = k)).map Prod.snd := by
  have hfrom : ∀ d : Dict κ β, (l.foldl (fun d e => d.set e.1 e.2) d).get k =
      ((l.find? (·.1 = k)).map Prod.snd).or (d.get k) := by
    induction l with
    | nil => exact fun d => rfl
    | cons e l ih =>
      intro d
      obtain ⟨hfresh, htail⟩ := List.nodup_cons.mp h
      rw [List.foldl_cons, ih htail, Dict.get_set]
      by_cases he : e.1 = k
      · have hnone : l.find? (·.1 = k) = none := by
          rw [List.find?_eq_none]
          rintro f hf hfk
          rw [decide_eq_true_eq] at hfk
          exact hfresh (List.mem_map.mpr ⟨f, hf, hfk.trans he.symm⟩)
        simp [hnone, he]
      · simp [he, Ne.symm he]
  rw [Dict.ofPairs, hfrom]
  cases (l.find? (·.1 = k)).map Prod.snd <;> rfl

/-- The values grouped under a key are those of the key, in order. -/
theorem Dict.getD_group (l : List (κ × β)) (k : κ) :
    ((Dict.group l).get k).getD [] = (l.filter (·.1 = k)).map Prod.snd := by
  have hfrom : ∀ d : Dict κ (List β),
      ((l.foldl (fun d e => d.set e.1 ((d.get e.1).getD [] ++ [e.2])) d).get k).getD [] =
        (d.get k).getD [] ++ (l.filter (·.1 = k)).map Prod.snd := by
    induction l with
    | nil => exact fun d => (List.append_nil _).symm
    | cons e l ih =>
      intro d
      rw [List.foldl_cons, ih, Dict.get_set]
      by_cases he : e.1 = k
      · subst he
        simp
      · simp [he, Ne.symm he]
  exact hfrom []

/-- A member is found under its key when the keys are different. -/
theorem find?_of_nodup_map {γ : Type v} {f : γ → κ} {l : List γ} (h : (l.map f).Nodup) {x : γ}
    (hx : x ∈ l) : l.find? (f · = f x) = some x := by
  have hfound : (l.find? (f · = f x)).isSome = true :=
    List.find?_isSome.mpr ⟨x, hx, decide_eq_true rfl⟩
  obtain ⟨y, hy⟩ := Option.isSome_iff_exists.mp hfound
  have hkey : f y = f x := by simpa using List.find?_some hy
  rw [hy, List.inj_on_of_nodup_map h (List.mem_of_find?_eq_some hy) hx hkey]

section Sorting

variable {γ : Type u} (value : γ → Int)

/-- Sorting by a number keeps the members that have one number. -/
theorem filter_insertionSort (l : List γ) (n : Int) :
    (l.insertionSort fun a b => value a ≤ value b).filter (value · = n) =
      l.filter (value · = n) := by
  have hsorted : (l.filter (value · = n)).Pairwise fun a b => value a ≤ value b := by
    apply List.pairwise_of_forall_mem_list
    intro a ha b hb
    have hna := of_decide_eq_true (List.mem_filter.mp ha).2
    have hnb := of_decide_eq_true (List.mem_filter.mp hb).2
    rw [hna, hnb]
  have hsub := (List.sublist_insertionSort hsorted List.filter_sublist).filter (value · = n)
  rw [List.filter_filter] at hsub
  simp only [Bool.and_self] at hsub
  have hlength := ((List.perm_insertionSort (fun a b => value a ≤ value b) l).filter
    (value · = n)).length_eq
  exact (hsub.eq_of_length hlength.symm).symm

/-- So it keeps the first one of them. -/
theorem find?_insertionSort (l : List γ) (n : Int) :
    (l.insertionSort fun a b => value a ≤ value b).find? (value · = n) =
      l.find? (value · = n) := by
  rw [← List.head?_filter, ← List.head?_filter, filter_insertionSort]

end Sorting

end Ewts
