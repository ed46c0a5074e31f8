import Mathlib.Logic.Function.Basic

/-!
# Locks

Each thread stands somewhere in its program. A lock guards the places that only its owner
may stand at: what one thread does there, no other thread does at the same time.
-/

namespace Ewts

universe u v w

variable {τ : Type u} {π : Type v} {β : Type w}

/-- The threads at guarded places are exactly the owner of the lock. -/
def Guards (inside : π → Prop) (owner : Option τ) (place : τ → π) : Prop :=
  ∀ t, inside (place t) ↔ owner = some t

/-- What the owner of a lock has at its place; nothing, when nobody has the lock. -/
def held (owner : Option τ) (place : τ → π) (f : π → List β) : List β :=
  match owner with
  | some t => f (place t)
  | none => []

namespace Guards

variable {inside : π → Prop} {owner : Option τ} {place : τ → π} {t u : τ}

/-- Mutual exclusion. -/
theorem unique (h : Guards inside owner place) (ht : inside (place t)) (hu : inside (place u)) :
    t = u :=
  Option.some.inj (((h t).mp ht).symm.trans ((h u).mp hu))

/-- While one thread is inside, every other one is outside. -/
theorem outside (h : Guards inside owner place) (ht : inside (place t)) (hne : u ≠ t) :
    ¬ inside (place u) :=
  fun hu => hne (h.unique hu ht)

variable [DecidableEq τ]

/-- A thread that moves from one side to the same side. -/
theorem keep (h : Guards inside owner place) {p : π} (hp : inside p ↔ inside (place t)) :
    Guards inside owner (Function.update place t p) := by
  intro u
  by_cases hu : u = t
  · rw [hu, Function.update_self, hp, h t]
  · rw [Function.update_of_ne hu, h u]

/-- A thread that takes the free lock goes inside. -/
theorem acquire (h : Guards inside none place) {p : π} (hp : inside p) :
    Guards inside (some t) (Function.update place t p) := by
  intro u
  by_cases hu : u = t
  · rw [hu, Function.update_self]
    exact iff_of_true hp rfl
  · rw [Function.update_of_ne hu, h u]
    refine iff_of_false (fun hnone => ?_) (fun hsome => hu (Option.some.inj hsome).symm)
    cases hnone

/-- The owner gives the lock back when it leaves. -/
theorem release (h : Guards inside owner place) (ht : inside (place t)) {p : π}
    (hp : ¬ inside p) : Guards inside none (Function.update place t p) := by
  intro u
  by_cases hu : u = t
  · rw [hu, Function.update_self]
    refine iff_of_false hp fun hnone => ?_
    cases hnone
  · rw [Function.update_of_ne hu]
    refine iff_of_false (h.outside ht hu) fun hnone => ?_
    cases hnone

/-- A family of locks, one of which changes hands while the thread moves. -/
theorem family {κ : Type w} [DecidableEq κ] {inside : κ → π → Prop} {owner : κ → Option τ} {k : κ}
    {o : Option τ} {p : π} (h : ∀ j, Guards (inside j) (owner j) place)
    (hk : Guards (inside k) o (Function.update place t p))
    (hother : ∀ j, j ≠ k → (inside j p ↔ inside j (place t))) (j : κ) :
    Guards (inside j) (Function.update owner k o j) (Function.update place t p) := by
  by_cases hj : j = k
  · rw [hj, Function.update_self]
    exact hk
  · rw [Function.update_of_ne hj]
    exact (h j).keep (hother j hj)

section Held

variable {owner' : Option τ} {p : π} {f f' : π → List β}

omit [DecidableEq τ] in
/-- When no other thread is inside, it is about this one. -/
theorem held_eq (h : Guards inside owner place) (hf : ∀ q, ¬ inside q → f q = [])
    (honly : ∀ u, inside (place u) → u = t) : held owner place f = f (place t) := by
  cases howner : owner with
  | some u =>
    rw [honly u ((h u).mpr howner)]
    rfl
  | none =>
    refine (hf (place t) fun ht => ?_).symm
    rw [(h t).mp ht] at howner
    cases howner

/-- A step of a thread that is inside before or afterwards is about what this thread has. -/
theorem held_of_inside (h : Guards inside owner place)
    (h' : Guards inside owner' (Function.update place t p))
    (hf : ∀ q, ¬ inside q → f q = []) (hf' : ∀ q, ¬ inside q → f' q = [])
    (ht : inside (place t) ∨ inside p) :
    held owner place f = f (place t) ∧ held owner' (Function.update place t p) f' = f' p := by
  have hother : ∀ u, u ≠ t → ¬ inside (place u) := by
    intro u hne hu
    rcases ht with ht | hp
    · exact hne (h.unique hu ht)
    · refine hne (h'.unique ?_ ?_)
      · rwa [Function.update_of_ne hne]
      · rwa [Function.update_self]
  constructor
  · exact h.held_eq hf fun u hu => by_contra fun hne => hother u hne hu
  · have hafter :
        held owner' (Function.update place t p) f' = f' (Function.update place t p t) := by
      refine h'.held_eq hf' fun u hu => by_contra fun hne => hother u hne ?_
      rwa [Function.update_of_ne hne] at hu
    rwa [Function.update_self] at hafter

/-- A step outside leaves what the owner has as far as it looks the same to the owner. -/
theorem held_of_outside (h : Guards inside owner place)
    (h' : Guards inside owner' (Function.update place t p)) (ht : ¬ inside (place t))
    (hp : ¬ inside p) (hsame : ∀ u, u ≠ t → f' (place u) = f (place u)) :
    held owner' (Function.update place t p) f' = held owner place f := by
  have hiff (u : τ) : owner' = some u ↔ owner = some u := by
    rw [← h u, ← h' u]
    by_cases hu : u = t
    · rw [hu, Function.update_self]
      exact iff_of_false hp ht
    · rw [Function.update_of_ne hu]
  have howner : owner' = owner := Option.ext hiff
  rw [howner]
  cases hu : owner with
  | none => rfl
  | some u =>
    have hne : u ≠ t := by
      rintro rfl
      exact ht ((h u).mpr hu)
    simp only [held, Function.update_of_ne hne, hsame u hne]

end Held

end Guards

end Ewts
