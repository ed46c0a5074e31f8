import Mathlib.Data.List.DropRight

/-!
# Trimming

Dropping a class of elements from both ends of a list. The functions of the languages
differ in their classes only, and agree on lists on which their classes do.
-/

namespace Ewts

universe u

variable {α : Type u} {p q : α → Bool} {l : List α}

/-- Drop what passes from both ends. -/
def trimWith (p : α → Bool) (l : List α) : List α := (l.dropWhile p).rdropWhile p

/-- Predicates that agree on a list drop the same front of it. -/
theorem dropWhile_congr (h : ∀ x ∈ l, p x = q x) : l.dropWhile p = l.dropWhile q := by
  induction l with
  | nil => rfl
  | cons x l ih =>
    have hx : p x = q x := h x (List.mem_cons_self ..)
    rw [List.dropWhile_cons, List.dropWhile_cons, hx,
      ih fun y hy => h y (List.mem_cons_of_mem x hy)]

/-- Nothing is dropped in front of an element outside the class. -/
theorem dropWhile_of_head? (h : ∀ x ∈ l.head?, p x = false) : l.dropWhile p = l := by
  cases l with
  | nil => rfl
  | cons x l => rw [List.dropWhile_cons, h x rfl, if_neg Bool.false_ne_true]

/-- They drop the same end of it. -/
theorem rdropWhile_congr (h : ∀ x ∈ l, p x = q x) : l.rdropWhile p = l.rdropWhile q := by
  unfold List.rdropWhile
  rw [dropWhile_congr fun x hx => h x (List.mem_reverse.mp hx)]

/-- An end that is dropped whole leaves no trace. -/
theorem rdropWhile_append_of_pos {r : List α} (h : ∀ x ∈ r, p x = true) :
    (l ++ r).rdropWhile p = l.rdropWhile p := by
  unfold List.rdropWhile
  rw [List.reverse_append, List.dropWhile_append_of_pos fun x hx => h x (List.mem_reverse.mp hx)]

/-- Only the class is dropped on both sides of a list with other ends. -/
theorem trimWith_around {a b : List α} (ha : ∀ x ∈ a, p x = true) (hb : ∀ x ∈ b, p x = true)
    (hne : l ≠ []) (hhead : ∀ x ∈ l.head?, p x = false) (hlast : ∀ x ∈ l.getLast?, p x = false) :
    trimWith p (a ++ (l ++ b)) = l := by
  have hfront : ∀ x ∈ (l ++ b).head?, p x = false := by
    rwa [List.head?_append_of_ne_nil _ hne]
  rw [trimWith, List.dropWhile_append_of_pos ha, dropWhile_of_head? hfront,
    rdropWhile_append_of_pos hb, List.rdropWhile_eq_self_iff]
  intro hl
  rw [hlast _ (List.getLast?_eq_some_getLast hl)]
  exact Bool.false_ne_true

/-- Trimming only takes elements away. -/
theorem mem_of_mem_trimWith {x : α} (h : x ∈ trimWith p l) : x ∈ l :=
  (List.dropWhile_sublist _).subset ((List.rdropWhile_prefix ..).subset h)

/-- Only the class of the members matters. -/
theorem trimWith_congr (h : ∀ x ∈ l, p x = q x) : trimWith p l = trimWith q l := by
  have hdrop : ∀ x ∈ l.dropWhile p, p x = q x :=
    fun x hx => h x ((List.dropWhile_sublist _).subset hx)
  unfold trimWith
  rw [rdropWhile_congr hdrop, dropWhile_congr h]

/-- A list without members of the class stays as it is. -/
theorem trimWith_of_forall_not (h : ∀ x ∈ l, p x = false) : trimWith p l = l := by
  have hdrop : l.dropWhile p = l := by
    apply List.dropWhile_eq_self_iff.mpr
    intro hl
    simp [h l[0] (List.getElem_mem hl)]
  unfold trimWith
  rw [hdrop, List.rdropWhile_eq_self_iff]
  intro hl
  simp [h (l.getLast hl) (List.getLast_mem hl)]

/-- The first element left is the first one behind the front. -/
theorem head?_trimWith : ∀ x ∈ (trimWith p l).head?, p x = false := by
  intro x hx
  obtain ⟨r, hr⟩ : trimWith p l <+: l.dropWhile p := List.rdropWhile_prefix ..
  have hfirst := List.head?_dropWhile_not p l
  cases ht : trimWith p l with
  | nil =>
    rw [ht] at hx
    cases hx
  | cons y t =>
    rw [ht] at hx hr
    cases hx
    rw [← hr] at hfirst
    simpa using hfirst

/-- Trimming the image of a list. -/
theorem trimWith_map {β : Type u} (f : β → α) (l : List β) :
    trimWith p (l.map f) = (trimWith (p ∘ f) l).map f := by
  unfold trimWith List.rdropWhile
  rw [List.dropWhile_map, ← List.map_reverse, List.dropWhile_map, List.map_reverse]

/-- Trimming leaves nothing to trim. -/
@[simp] theorem trimWith_trimWith : trimWith p (trimWith p l) = trimWith p l := by
  have hdrop : (trimWith p l).dropWhile p = trimWith p l := dropWhile_of_head? head?_trimWith
  change List.rdropWhile p ((trimWith p l).dropWhile p) = _
  rw [hdrop]
  exact List.rdropWhile_idempotent p _

end Ewts
