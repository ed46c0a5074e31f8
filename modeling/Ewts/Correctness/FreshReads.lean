import Ewts.Core.Runs
import Ewts.Runtime.Python.Config

/-!
# Fresh reads of the environment

`getenv_any` prefers the interpreter's own copy of the environment, and adds to that copy
what it finds elsewhere. So it answers with the first value under which a variable was seen,
at interpreter start or by a read.
-/

namespace Ewts.Python

/-- The name of a variable. Bytes of a name that are not UTF-8 stand as lone surrogates, from
U+DC80 to U+DCFF. -/
structure VarName where
  val : Text
  ne_nil : val ≠ []
  plain : ∀ c ∈ val, c ≠ 0 ∧ c ≠ ch '='
  decoded : ∀ c ∈ val, c.isSurrogate = true → 0xDC80 ≤ c.val ∧ c.val ≤ 0xDCFF

/-- What happens to the environments of an embedded interpreter; a default may be `None`. -/
inductive EnvCall where
  | setenv (name : VarName) (value : Text)
  | unsetenv (name : VarName)
  | getenvAny (key : VarName) (default : Option Text)

/-- What `getenv_any(key, default)` returns. -/
def Process.answer (p : Process) (key : Text) (default : Option Text) : Option Text :=
  (getenvAnyOrNone key p).1.or default

namespace EnvCall

/-- The environments after a call; the C side only reaches those of libc. -/
def run (p : Process) : EnvCall → Process
  | setenv name value => { p with libc := p.libc.setenv name.val value }
  | unsetenv name => { p with libc := p.libc.unsetenv name.val }
  | getenvAny key _ => (getenvAnyOrNone key.val p).2

/-- A read returns the value of the process, or the default of a variable that is not set. -/
def Fresh (p : Process) : EnvCall → Prop
  | getenvAny key default =>
    (∀ v, p.libc key.val = some v → v ≠ [] → p.answer key.val default = some v) ∧
    (p.libc key.val = none → p.answer key.val default = default)
  | _ => True

end EnvCall

/-- A variable that a read through libc finds: not empty, and UTF-8 like its name. -/
structure Visible (key v : Text) : Prop where
  ne_nil : v ≠ []
  key_scalar : key.Scalar
  scalar : v.Scalar

instance (key v : Text) : Decidable (Visible key v) :=
  decidable_of_iff (v ≠ [] ∧ key.Scalar ∧ v.Scalar)
    ⟨fun h => ⟨h.1, h.2.1, h.2.2⟩, fun h => ⟨h.ne_nil, h.key_scalar, h.scalar⟩⟩

/-- The environment of the process, and the first values seen. -/
structure Sightings where
  current : Environ
  first : Environ

namespace Sightings

/-- What is seen at interpreter start. -/
def start (env : Environ) : Sightings := ⟨env, env⟩

/-- Reads leave the environment alone, and see a variable for the first time only once. -/
def next (s : Sightings) : EnvCall → Sightings
  | .setenv name value => { s with current := s.current.setenv name.val value }
  | .unsetenv name => { s with current := s.current.unsetenv name.val }
  | .getenvAny key _ =>
    match s.first key.val, s.current key.val with
    | none, some v =>
      if Visible key.val v then { s with first := s.first.setenv key.val v } else s
    | _, _ => s

/-- A variable that is read has the value under which it was first seen, and one that was not
seen yet is visible. Otherwise the answer can only be right by the choice of the default. -/
def Unchanged (s : Sightings) : EnvCall → Prop
  | .getenvAny key default =>
    match s.first key.val, s.current key.val with
    | none, some v => v = [] ∨ Visible key.val v ∨ default = some v
    | none, none => True
    | some r, some v => v = [] ∨ v = r
    | some r, none => default = some r
  | _ => True

/-- The environments of an interpreter that has seen this. -/
def process (s : Sightings) : Process := ⟨s.first, s.current⟩

end Sightings

theorem visible_iff {key v : Text} :
    Visible key v ↔ ¬ (v = [] ∨ ¬ key.Scalar ∨ ¬ v.Scalar) := by
  simp only [not_or, not_not]
  exact ⟨fun h => ⟨h.ne_nil, h.key_scalar, h.scalar⟩, fun h => ⟨h.1, h.2.1, h.2.2⟩⟩

/-- What a read finds, and what it leaves: the copy of the interpreter answers for what was
seen before, and takes up a first sighting. Writing the value back changes nothing. -/
theorem Sightings.getenvAnyOrNone_process (s : Sightings) (key : Text) :
    getenvAnyOrNone key s.process =
      match s.first key, s.current key with
      | some r, _ => (some r, s.process)
      | none, some v =>
        if Visible key v then (some v, ⟨s.first.setenv key v, s.current⟩) else (none, s.process)
      | none, none => (none, s.process) := by
  unfold getenvAnyOrNone process
  cases hfirst : s.first key with
  | some r => simp only [hfirst]
  | none =>
    cases hcurrent : s.current key with
    | none => simp only [hfirst, hcurrent]
    | some v =>
      have hback : s.current.setenv key v = s.current := by
        rw [Environ.setenv, ← hcurrent]
        exact Function.update_eq_self key s.current
      simp only [hfirst, hcurrent, hback, visible_iff, ite_not]

/-- The copy of the interpreter holds the first sightings. -/
theorem run_process (s : Sightings) (call : EnvCall) :
    call.run s.process = (s.next call).process := by
  cases call with
  | setenv name value => rfl
  | unsetenv name => rfl
  | getenvAny key default =>
    rw [EnvCall.run, Sightings.next, s.getenvAnyOrNone_process]
    cases s.first key.val with
    | some r => rfl
    | none =>
      cases s.current key.val with
      | none => rfl
      | some v =>
        simp only
        split
        · rfl
        · rfl

/-- A read is fresh exactly when its variable has not changed since it was first seen. -/
theorem fresh_iff_unchanged (s : Sightings) (call : EnvCall) :
    call.Fresh s.process ↔ s.Unchanged call := by
  cases call with
  | setenv name value => exact Iff.rfl
  | unsetenv name => exact Iff.rfl
  | getenvAny key default =>
    have hlibc : s.process.libc key.val = s.current key.val := rfl
    rw [EnvCall.Fresh, Sightings.Unchanged, Process.answer, hlibc, s.getenvAnyOrNone_process]
    cases s.first key.val with
    | some r =>
      cases s.current key.val with
      | none => simp [eq_comm]
      | some v => simp [or_iff_not_imp_left, eq_comm]
    | none =>
      cases s.current key.val with
      | none => simp
      | some v =>
        by_cases hvisible : Visible key.val v
        · simp [hvisible]
        · simp [hvisible, or_iff_not_imp_left]

/-- Over any interleaving of calls, every read is fresh exactly when every variable that is
read has kept the value under which it was first seen. -/
theorem fresh_run_iff (env : Environ) (calls : List EnvCall) :
    EachStep EnvCall.run EnvCall.Fresh ⟨env, env⟩ calls ↔
      EachStep Sightings.next Sightings.Unchanged (.start env) calls := by
  apply eachStep_iff_of_simulation (R := fun p s => p = s.process)
  · rintro _ s call rfl
    exact ⟨fresh_iff_unchanged s call, run_process s call⟩
  · rfl

/-- A switch that was off when the interpreter started stays off for Python when the C side
turns it on. -/
theorem stale_switch : ∃ switch : VarName, switch.val = text "EWTS_ENABLED" ∧
    ¬ EachStep EnvCall.run EnvCall.Fresh
      ⟨Environ.setenv (fun _ => none) (text "EWTS_ENABLED") (text "0"),
        Environ.setenv (fun _ => none) (text "EWTS_ENABLED") (text "0")⟩
      [.setenv switch (text "1"), .getenvAny switch (some [])] := by
  refine ⟨⟨text "EWTS_ENABLED", by decide, by decide, by decide⟩, rfl, ?_⟩
  rintro ⟨_, ⟨hset, _⟩, _⟩
  have hanswer := hset (text "1") rfl (by decide)
  revert hanswer
  decide

end Ewts.Python
