import Ewts.Core.Text

/-!
# Process environments

An environment maps names to values. Exporting a list of assignments in order
leaves, under every name, the value assigned last.
-/

namespace Ewts

/-- The variables of a process. -/
abbrev Environ := Text → Option Text

/-- `setenv(name, value, 1)`. -/
def Environ.setenv (env : Environ) (name value : Text) : Environ :=
  Function.update env name (some value)

/-- `unsetenv(name)`. -/
def Environ.unsetenv (env : Environ) (name : Text) : Environ := Function.update env name none

section Access

variable (env : Environ) {name other : Text}

@[simp] theorem Environ.setenv_same (value : Text) : env.setenv name value name = some value :=
  Function.update_self ..

/-- Setting one variable leaves the others. -/
@[simp] theorem Environ.setenv_other (h : other ≠ name) (value : Text) :
    env.setenv name value other = env other :=
  Function.update_of_ne h ..

@[simp] theorem Environ.unsetenv_same : env.unsetenv name name = none :=
  Function.update_self ..

/-- So does clearing one. -/
@[simp] theorem Environ.unsetenv_other (h : other ≠ name) : env.unsetenv name other = env other :=
  Function.update_of_ne h ..

end Access

/-- Assignments in order. -/
def Environ.setAll (env : Environ) (l : List (Text × Text)) : Environ :=
  l.foldl (fun e p => e.setenv p.1 p.2) env

/-- Removals in order. -/
def Environ.unsetAll (env : Environ) (l : List Text) : Environ :=
  l.foldl Environ.unsetenv env

/-- Assignments are made from left to right. -/
theorem Environ.setAll_append (env : Environ) (l l' : List (Text × Text)) :
    env.setAll (l ++ l') = (env.setAll l).setAll l' :=
  List.foldl_append

/-- A name that no assignment mentions keeps its value. -/
theorem Environ.setAll_other {env : Environ} {l : List (Text × Text)} {name : Text}
    (h : ∀ p ∈ l, p.1 ≠ name) : env.setAll l name = env name := by
  induction l generalizing env with
  | nil => rfl
  | cons p l ih =>
    have hp : name ≠ p.1 := (h p (List.mem_cons_self ..)).symm
    have hl : (env.setenv p.1 p.2).setAll l name = env.setenv p.1 p.2 name :=
      ih fun q hq => h q (List.mem_cons_of_mem _ hq)
    exact hl.trans (env.setenv_other hp _)

/-- A name whose assignments all agree gets their value. -/
theorem Environ.setAll_of_agree {env : Environ} {l : List (Text × Text)} {name value : Text}
    (hmem : ∃ p ∈ l, p.1 = name) (h : ∀ p ∈ l, p.1 = name → p.2 = value) :
    env.setAll l name = some value := by
  induction l generalizing env with
  | nil =>
    obtain ⟨p, hp, _⟩ := hmem
    cases hp
  | cons p l ih =>
    have htail : ∀ q ∈ l, q.1 = name → q.2 = value := fun q hq => h q (List.mem_cons_of_mem _ hq)
    by_cases hl : ∃ q ∈ l, q.1 = name
    · exact ih hl htail
    · have hother : ∀ q ∈ l, q.1 ≠ name := fun q hq hn => hl ⟨q, hq, hn⟩
      obtain ⟨q, hq, hn⟩ := hmem
      rcases List.mem_cons.mp hq with rfl | hq
      · have hs : (env.setenv q.1 q.2).setAll l name = env.setenv q.1 q.2 name :=
          setAll_other hother
        calc (env.setenv q.1 q.2).setAll l name = env.setenv q.1 q.2 name := hs
          _ = some q.2 := by rw [← hn]; exact env.setenv_same q.2
          _ = some value := by rw [h q (List.mem_cons_self ..) hn]
      · exact absurd hn (hother q hq)

/-- An assigned name gets a value that does not depend on what it was before. -/
theorem Environ.setAll_congr {env env' : Environ} {l : List (Text × Text)} {name : Text}
    (h : env name = env' name ∨ ∃ p ∈ l, p.1 = name) : env.setAll l name = env'.setAll l name := by
  induction l generalizing env env' with
  | nil =>
    rcases h with h | ⟨p, hp, _⟩
    · exact h
    · cases hp
  | cons p l ih =>
    have hstep : env.setenv p.1 p.2 name = env'.setenv p.1 p.2 name ∨ ∃ q ∈ l, q.1 = name := by
      by_cases hp : name = p.1
      · left
        rw [hp, env.setenv_same, env'.setenv_same]
      · rw [env.setenv_other hp, env'.setenv_other hp]
        rcases h with h | ⟨q, hq, hn⟩
        · exact Or.inl h
        · rcases List.mem_cons.mp hq with rfl | hq
          · exact absurd hn.symm hp
          · exact Or.inr ⟨q, hq, hn⟩
    exact ih hstep

/-- The assignment that comes last decides. -/
theorem Environ.setAll_last (env : Environ) (l : List (Text × Text)) (name value : Text) :
    env.setAll (l ++ [(name, value)]) name = some value := by
  rw [setAll_append]
  exact (env.setAll l).setenv_same value

end Ewts
