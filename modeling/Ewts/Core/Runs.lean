import Mathlib.Data.List.Infix

/-!
# Runs of a step function

A run takes its operations one after the other. What holds of every state or of every
operation of a run is reduced here to one step.
-/

namespace Ewts

universe u v w

variable {σ : Type u} {τ : Type w} {ι : Type v} (step : σ → ι → σ) (step' : τ → ι → τ)

/-- The state that a list of operations leads to. -/
def runFrom (s : σ) (ops : List ι) : σ := ops.foldl step s

/-- A property of every state of a run, from the first to the last. -/
def AllStates (P : σ → Prop) (s : σ) (ops : List ι) : Prop :=
  ∀ done, done <+: ops → P (runFrom step s done)

/-- A property of every operation of a run, in the state in which it is taken. -/
def EachStep (P : σ → ι → Prop) : σ → List ι → Prop
  | _, [] => True
  | s, i :: ops => P s i ∧ EachStep P (step s i) ops

instance EachStep.decidable {P : σ → ι → Prop} [h : ∀ s i, Decidable (P s i)] :
    ∀ (s : σ) (ops : List ι), Decidable (EachStep step P s ops)
  | _, [] => isTrue trivial
  | s, i :: ops => @instDecidableAnd _ _ (h s i) (EachStep.decidable (step s i) ops)

variable {step step'} {s : σ} {t : τ} {ops : List ι}

@[simp] theorem runFrom_nil : runFrom step s [] = s := rfl

@[simp] theorem runFrom_cons (i : ι) : runFrom step s (i :: ops) = runFrom step (step s i) ops :=
  rfl

/-- A run goes on where it has stopped. -/
theorem runFrom_append (more : List ι) :
    runFrom step s (ops ++ more) = runFrom step (runFrom step s ops) more :=
  List.foldl_append

@[simp] theorem allStates_nil {P : σ → Prop} : AllStates step P s [] ↔ P s := by
  simp [AllStates]

/-- The states of a run are the first one and those of the rest. -/
theorem allStates_cons {P : σ → Prop} (i : ι) :
    AllStates step P s (i :: ops) ↔ P s ∧ AllStates step P (step s i) ops := by
  constructor
  · intro h
    exact ⟨h [] List.nil_prefix,
      fun done hd => h (i :: done) (List.cons_prefix_cons.mpr ⟨rfl, hd⟩)⟩
  · rintro ⟨hs, hrest⟩ done hd
    cases done with
    | nil => exact hs
    | cons j done =>
      obtain ⟨rfl, hd'⟩ := List.cons_prefix_cons.mp hd
      exact hrest done hd'

/-- What every step preserves holds at the end. -/
theorem runFrom_invariant {I : σ → Prop} (hstep : ∀ s, ∀ i ∈ ops, I s → I (step s i))
    (hs : I s) : I (runFrom step s ops) := by
  induction ops generalizing s with
  | nil => exact hs
  | cons i ops ih =>
    apply ih
    · exact fun s j hj => hstep s j (List.mem_cons_of_mem i hj)
    · exact hstep s i (List.mem_cons_self ..) hs

/-- What every step preserves under a condition holds at the end of a run that meets it. -/
theorem runFrom_of_eachStep {I : σ → Prop} {C : σ → ι → Prop}
    (hstep : ∀ s i, I s → C s i → I (step s i)) (hrun : EachStep step C s ops) (hs : I s) :
    I (runFrom step s ops) := by
  induction ops generalizing s with
  | nil => exact hs
  | cons i ops ih => exact ih hrun.2 (hstep s i hs hrun.1)

/-- Two runs that keep a relation have the same property of their operations. -/
theorem eachStep_iff_of_simulation {R : σ → τ → Prop} {P : σ → ι → Prop} {Q : τ → ι → Prop}
    (hstep : ∀ s t i, R s t → (P s i ↔ Q t i) ∧ R (step s i) (step' t i)) (h : R s t) :
    EachStep step P s ops ↔ EachStep step' Q t ops := by
  induction ops generalizing s t with
  | nil => exact Iff.rfl
  | cons i ops ih =>
    obtain ⟨hiff, hnext⟩ := hstep s t i h
    exact and_congr hiff (ih hnext)

/-- A property of states that a step keeps exactly under a condition holds along a run
exactly when every operation meets the condition. -/
theorem allStates_iff_eachStep {I P : σ → Prop} {C : σ → ι → Prop}
    (hstep : ∀ s i, I s → I (step s i)) (hiff : ∀ s i, I s → P s → (P (step s i) ↔ C s i))
    (hs : I s) (hp : P s) : AllStates step P s ops ↔ EachStep step C s ops := by
  induction ops generalizing s with
  | nil => simpa only [allStates_nil, EachStep, iff_true] using hp
  | cons i ops ih =>
    rw [allStates_cons]
    constructor
    · rintro ⟨_, hrest⟩
      have hnext : P (step s i) := hrest [] List.nil_prefix
      exact ⟨(hiff s i hs hp).mp hnext, (ih (hstep s i hs) hnext).mp hrest⟩
    · rintro ⟨hi, hrest⟩
      have hnext := (hiff s i hs hp).mpr hi
      exact ⟨hp, (ih (hstep s i hs) hnext).mpr hrest⟩

end Ewts
