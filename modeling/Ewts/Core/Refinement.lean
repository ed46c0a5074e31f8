import Ewts.Core.Runs
import Mathlib.Algebra.BigOperators.Group.Finset.Piecewise
import Mathlib.Algebra.Order.BigOperators.Group.Finset
import Mathlib.Logic.Function.Basic

/-!
# Refinement of runs

A concrete step stands for the abstract operations that take effect in it. The abstract run
of all of them, in the order in which they take effect, explains the concrete run. A measure
that every effective step lowers makes each fair schedule come to its end.
-/

namespace Ewts

universe u v w x y

variable {σ : Type u} {α : Type v} {ι : Type w} {ε : Type x} {β : Type y}
  (step : σ → ι → σ) (emit : σ → ι → List ε)

/-- What takes effect along a run, in order. -/
def effects : σ → List ι → List ε
  | _, [] => []
  | s, i :: ops => emit s i ++ effects (step s i) ops

variable {step emit} {s : σ} {ops : List ι}

/-- Later steps only add effects. -/
theorem effects_append (s : σ) (ops more : List ι) :
    effects step emit s (ops ++ more) =
      effects step emit s ops ++ effects step emit (runFrom step s ops) more := by
  induction ops generalizing s with
  | nil => rfl
  | cons i ops ih => rw [List.cons_append, effects, effects, ih, List.append_assoc, runFrom_cons]

/-- Forward simulation: a relation that each step keeps with its effects holds of the run and
the abstract run of its effects. -/
theorem runFrom_refines {act : α → ε → α} {R : σ → α → Prop} {a : α}
    (hstep : ∀ s a, ∀ i ∈ ops, R s a → R (step s i) (runFrom act a (emit s i))) (h : R s a) :
    R (runFrom step s ops) (runFrom act a (effects step emit s ops)) := by
  induction ops generalizing s a with
  | nil => exact h
  | cons i ops ih =>
    rw [effects, runFrom_append, runFrom_cons]
    apply ih
    · exact fun s a j hj => hstep s a j (List.mem_cons_of_mem i hj)
    · exact hstep s a i (List.mem_cons_self ..) h

/-- Two runs of one list of operations, in lockstep. -/
theorem runFrom_lockstep {act : α → ι → α} {R : σ → α → Prop} {a : α}
    (hstep : ∀ s a i, R s a → R (step s i) (act a i)) (h : R s a) :
    R (runFrom step s ops) (runFrom act a ops) := by
  induction ops generalizing s a with
  | nil => exact h
  | cons i ops ih => exact ih (hstep s a i h)

/-- A run that only collects what it is given. -/
theorem runFrom_collect (es more : List ε) :
    runFrom (fun (es : List ε) e => es ++ [e]) es more = es ++ more := by
  induction more generalizing es with
  | nil => exact (List.append_nil es).symm
  | cons e more ih => rw [runFrom_cons, ih, List.append_assoc, List.singleton_append]

/-- A relation between states and what has taken effect so far. -/
theorem effects_invariant {R : σ → List ε → Prop}
    (hstep : ∀ s es i, R s es → R (step s i) (es ++ emit s i)) (h : R s []) :
    R (runFrom step s ops) (effects step emit s ops) := by
  have hrun : R (runFrom step s ops)
      (runFrom (fun (es : List ε) e => es ++ [e]) [] (effects step emit s ops)) := by
    refine runFrom_refines (fun s es i _ hs => ?_) h
    rw [runFrom_collect]
    exact hstep s es i hs
  rwa [runFrom_collect] at hrun

/-- A condition on the steps of a run splits with the run. -/
theorem eachStep_append {act : α → ε → α} {Q : α → ε → Prop} {a : α} {es more : List ε} :
    EachStep act Q a (es ++ more) ↔
      EachStep act Q a es ∧ EachStep act Q (runFrom act a es) more := by
  induction es generalizing a with
  | nil => exact (and_iff_right trivial).symm
  | cons e es ih => rw [List.cons_append, EachStep, EachStep, ih, and_assoc, runFrom_cons]

/-- What the steps of a run ensure of their effects holds all along the abstract run. -/
theorem eachStep_effects {act : α → ε → α} {R : σ → α → Prop} {C : σ → ι → Prop}
    {Q : α → ε → Prop} {a : α}
    (hstep : ∀ s a i, R s a → C s i →
      EachStep act Q a (emit s i) ∧ R (step s i) (runFrom act a (emit s i)))
    (hrun : EachStep step C s ops) (h : R s a) :
    EachStep act Q a (effects step emit s ops) := by
  induction ops generalizing s a with
  | nil => trivial
  | cons i ops ih =>
    obtain ⟨hc, hrest⟩ := hrun
    obtain ⟨hq, hnext⟩ := hstep s a i h hc
    rw [effects, eachStep_append]
    exact ⟨hq, ih hrest hnext⟩

/-- What lies ahead of a state is used up by the effects, from its front. -/
theorem effects_ledger {view : ε → Option β} {ahead : σ → List β}
    (hstep : ∀ s i, ahead s = (emit s i).filterMap view ++ ahead (step s i)) (s : σ)
    (ops : List ι) :
    ahead s = (effects step emit s ops).filterMap view ++ ahead (runFrom step s ops) := by
  induction ops generalizing s with
  | nil => rfl
  | cons i ops ih =>
    rw [effects, List.filterMap_append, List.append_assoc, runFrom_cons, ← ih, ← hstep]

/-! ## Fair schedules -/

/-- The states of an infinite run. -/
def stateAfter (step : σ → ι → σ) (s : σ) (schedule : Nat → ι) (n : Nat) : σ :=
  runFrom step s ((List.range n).map schedule)

/-- A schedule takes one step after the other. -/
theorem stateAfter_succ (s : σ) (schedule : Nat → ι) (n : Nat) :
    stateAfter step s schedule (n + 1) = step (stateAfter step s schedule n) (schedule n) := by
  rw [stateAfter, List.range_succ, List.map_append, runFrom_append]
  rfl

variable {κ : Type y} {who : ι → κ} {schedule : Nat → ι} {I : σ → Prop} {rank : σ → Nat}

/-- A process that can act is not passed over for ever: before its turn at the latest, a step
takes effect. -/
theorem exists_effective_step (hdec : ∀ s i, I s → step s i = s ∨ rank (step s i) < rank s)
    (hinv : ∀ n, I (stateAfter step s schedule n)) {k : κ} {n m : Nat} (hnm : n ≤ m)
    (hm : who (schedule m) = k)
    (hk : ∀ i, who i = k →
      step (stateAfter step s schedule n) i ≠ stateAfter step s schedule n) :
    ∃ m', rank (stateAfter step s schedule m') < rank (stateAfter step s schedule n) := by
  induction hd : m - n generalizing n with
  | zero =>
    have heq : n = m := by omega
    rw [heq] at hk ⊢
    refine ⟨m + 1, ?_⟩
    rw [stateAfter_succ]
    exact (hdec _ (schedule m) (hinv m)).resolve_left (hk (schedule m) hm)
  | succ d ih =>
    have hnext : stateAfter step s schedule (n + 1) = step (stateAfter step s schedule n) _ :=
      stateAfter_succ s schedule n
    rcases hdec _ (schedule n) (hinv n) with hstay | hless
    · rw [← hnext] at hstay
      rw [← hstay] at hk ⊢
      exact ih (by omega) hk (by omega)
    · exact ⟨n + 1, by rwa [hnext]⟩

/-- A schedule in which every process has its turn again and again brings the run to its end,
when some process can act until then and every effective step lowers the rank. -/
theorem exists_done_of_fair (I done : σ → Prop) (rank : σ → Nat)
    (hfair : ∀ k n, ∃ m, n ≤ m ∧ who (schedule m) = k)
    (hinv : ∀ s i, I s → I (step s i))
    (hdec : ∀ s i, I s → step s i = s ∨ rank (step s i) < rank s)
    (hlive : ∀ s, I s → ¬ done s → ∃ k, ∀ i, who i = k → step s i ≠ s) (hs : I s) :
    ∃ n, done (stateAfter step s schedule n) := by
  have hall : ∀ n, I (stateAfter step s schedule n) :=
    fun n => runFrom_invariant (fun s i _ h => hinv s i h) hs
  by_contra hnever
  rw [not_exists] at hnever
  have hdescend : ∀ r n, rank (stateAfter step s schedule n) = r → False := by
    intro r
    induction r using Nat.strong_induction_on with
    | _ r ih =>
      intro n hr
      obtain ⟨k, hk⟩ := hlive _ (hall n) (hnever n)
      obtain ⟨m, hnm, hm⟩ := hfair k n
      obtain ⟨m', hless⟩ := exists_effective_step hdec hall hnm hm hk
      exact ih _ (hr ▸ hless) m' rfl
  exact hdescend _ 0 rfl

/-- The same for processes that are blocked or come nearer to the end. -/
theorem exists_done_of_blocking (I done : σ → Prop) (rank : σ → Nat) (blocked : σ → κ → Prop)
    (hfair : ∀ k n, ∃ m, n ≤ m ∧ who (schedule m) = k)
    (hinv : ∀ s i, I s → I (step s i))
    (hstay : ∀ s i, blocked s (who i) → step s i = s)
    (hless : ∀ s i, I s → ¬ blocked s (who i) → rank (step s i) < rank s)
    (hlive : ∀ s, I s → ¬ done s → ∃ k, ¬ blocked s k) (hs : I s) :
    ∃ n, done (stateAfter step s schedule n) := by
  refine exists_done_of_fair I done rank hfair hinv (fun s i h => ?_) (fun s h hdone => ?_) hs
  · by_cases hi : blocked s (who i)
    · exact Or.inl (hstay s i hi)
    · exact Or.inr (hless s i h hi)
  · obtain ⟨k, hk⟩ := hlive s h hdone
    refine ⟨k, fun i hi hsame => ?_⟩
    have hrank := hless s i h (hi ▸ hk)
    rw [hsame] at hrank
    exact lt_irrefl _ hrank

/-- A sum over all processes, one of which has moved. -/
theorem sum_update [DecidableEq κ] [Fintype κ] {π : Type u} (f : π → Nat) (place : κ → π) (k : κ)
    (p : π) : ∑ j, f (Function.update place k p j) + f (place k) = ∑ j, f (place j) + f p := by
  have hcomp : (fun j => f (Function.update place k p j)) =
      Function.update (fun j => f (place j)) k (f p) := by
    ext1 j
    by_cases hj : j = k
    · rw [hj, Function.update_self, Function.update_self]
    · rw [Function.update_of_ne hj, Function.update_of_ne hj]
  rw [hcomp, Finset.sum_update_of_mem (Finset.mem_univ k),
    ← Finset.add_sum_erase Finset.univ (fun j => f (place j)) (Finset.mem_univ k),
    Finset.sdiff_singleton_eq_erase]
  omega

end Ewts
