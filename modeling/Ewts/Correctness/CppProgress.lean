import Ewts.Correctness.CppThreads

/-!
# Every call of the C++ runtime returns

A thread never waits for a mutex while it holds another one: the registry is left before the
first use, the first use before the stream is taken. Under a fair schedule all calls return.
-/

namespace Ewts.Cpp

variable {τ : Type} {host : Host} {s : Shared τ} {t : τ} {now : Timestamp} {θ : Thread}
  {r : Shared τ × Thread}

/-- A bound on the steps that are left of the call of a thread. -/
def Position.stepsLeft : Position → Nat
  | .outside => 0
  | .find .. => 31
  | .create .. => 30
  | .unlock .. => 29
  | .use .. => 28
  | .check .. => 27
  | .rank .. => 26
  | .head .. => 25
  | .named .. => 24
  | .announce _ _ rest => rest.length + 16
  | .leave .. => 15
  | .act .. => 14
  | .route .. => 13
  | .waiting .. => 12
  | .opening .. => 11
  | .write _ _ rest => rest.length + 1

/-- A bound on the steps that are left of a thread. -/
def Thread.stepsLeft (θ : Thread) : Nat := θ.position.stepsLeft + 32 * θ.todo.length

/-- The calls of a thread, those that have returned included. -/
def Thread.calls (θ : Thread) : Nat :=
  θ.answers.length + θ.todo.length + match θ.position with
    | .outside => 0
    | _ => 1

theorem length_notices_le (env : Environ) (linked : Bool) (label : Text) (lg : Logger) :
    (notices env linked label lg).length ≤ 7 := by
  by_cases hroute : (lg.useNgen && isNgenActive env && linked) = true
  · rw [notices, if_pos hroute]
    exact Nat.le_add_right 4 3
  · rw [notices, if_neg hroute]
    exact Nat.le_refl 7

/-- A thread that does not wait comes nearer to its end. -/
theorem Thread.Move.stepsLeft_lt (hmove : Thread.Move host s t now θ r) (h : ¬ θ.Blocked s) :
    r.2.stepsLeft < θ.stepsLeft := by
  cases hmove with
  | stay hblocked => exact absurd hblocked h
  | enter | direct =>
    simp only [Thread.stepsLeft, Position.stepsLeft, List.length_cons]
    omega
  | @head key =>
    have hlength := length_notices_le host.env host.linked plainLabel (s.loggers.at key)
    simp only [Thread.stepsLeft, Position.stepsLeft]
    omega
  | @named key =>
    have hlength := length_notices_le host.env host.linked (rankLabel s.mpiRank) (s.loggers.at key)
    simp only [Thread.stepsLeft, Position.stepsLeft]
    omega
  | opened => simp [Thread.stepsLeft, Position.stepsLeft, linePieces]
  | _ => simp [Thread.stepsLeft, Position.stepsLeft]

/-- A thread that waits does nothing. -/
theorem Thread.step_of_blocked (h : θ.Blocked s) : θ.step host s t now = (s, θ) := by
  obtain ⟨position, current, todo, answers⟩ := θ
  cases position with
  | outside =>
    cases todo with
    | nil => rfl
    | cons call todo =>
      obtain ⟨hlookup, hmutex⟩ := h call rfl
      obtain ⟨l, hl⟩ := Option.ne_none_iff_exists'.mp hlookup
      obtain ⟨u, hu⟩ := Option.ne_none_iff_exists'.mp hmutex
      simp only at hl
      simp only [Thread.step, hl, hu]
  | use key method =>
    obtain ⟨hnothing, hmutex⟩ := h
    obtain ⟨u, hu⟩ := Option.ne_none_iff_exists'.mp hmutex
    unfold Thread.step
    simp only [hu]
  | waiting key level message read =>
    obtain ⟨u, hu⟩ := Option.ne_none_iff_exists'.mp h
    simp only [Thread.step, hu]
  | _ => exact False.elim h

/-- No call is lost. -/
theorem Thread.Move.calls_eq (hmove : Thread.Move host s t now θ r) : r.2.calls = θ.calls := by
  cases hmove with
  | enter | direct | select | nothing | query | drop | bridge | throws | release =>
    simp only [Thread.calls, List.length_cons, List.length_append, List.length_nil]
    omega
  | _ => rfl

/-- Nothing in the registry waits. -/
theorem Thread.InRegistry.not_blocked (h : θ.InRegistry) : ¬ θ.Blocked s := by
  obtain ⟨position, current, todo, answers⟩ := θ
  cases position with
  | find | create | unlock => exact id
  | _ => exact False.elim h

/-- Nothing in the first use of a logger waits. -/
theorem Thread.InInit.not_blocked {key : Text} (h : θ.InInit key) : ¬ θ.Blocked s := by
  obtain ⟨position, current, todo, answers⟩ := θ
  cases position with
  | check | rank | head | named | announce | leave => exact id
  | _ => exact False.elim h

/-- Nothing at a stream waits. -/
theorem Thread.InLog.not_blocked {key : Text} (h : θ.InLog key) : ¬ θ.Blocked s := by
  obtain ⟨position, current, todo, answers⟩ := θ
  cases position with
  | opening | write => exact id
  | _ => exact False.elim h

/-- All calls of a thread have returned. -/
def Thread.Finished (θ : Thread) : Prop := θ.position = .outside ∧ θ.todo = []

/-- Until all calls have returned some thread can act: the owner of a mutex never waits. -/
theorem World.Invariant.exists_unblocked {w : World τ} (h : w.Invariant host)
    (hw : ¬ ∀ t, (w.threads t).Finished) : ∃ t, ¬ (w.threads t).Blocked w.shared := by
  obtain ⟨t, ht⟩ := not_forall.mp hw
  by_cases hblocked : (w.threads t).Blocked w.shared
  · have hwaits := hblocked
    unfold Thread.Blocked at hwaits
    cases hp : (w.threads t).position with
    | outside =>
      rw [hp] at hwaits
      cases htodo : (w.threads t).todo with
      | nil => exact absurd ⟨hp, htodo⟩ ht
      | cons call todo =>
        rw [htodo] at hwaits
        obtain ⟨u, hu⟩ := Option.ne_none_iff_exists'.mp (hwaits call rfl).2
        exact ⟨u, ((h.registry u).mpr hu).not_blocked⟩
    | use key method =>
      rw [hp] at hwaits
      obtain ⟨u, hu⟩ := Option.ne_none_iff_exists'.mp hwaits.2
      exact ⟨u, ((h.init key u).mpr hu).not_blocked⟩
    | waiting key level message read =>
      rw [hp] at hwaits
      obtain ⟨u, hu⟩ := Option.ne_none_iff_exists'.mp hwaits
      exact ⟨u, ((h.log key u).mpr hu).not_blocked⟩
    | _ =>
      rw [hp] at hwaits
      exact hwaits.elim
  · exact ⟨t, hblocked⟩

section Fair

variable [DecidableEq τ]

/-- At any time a thread has returned from its calls, is in one or has yet to make them. -/
theorem World.calls_run (host : Host) (programs : τ → List Call)
    (schedule : List (τ × Timestamp)) (t : τ) :
    ((runFrom (World.step host) (World.start programs) schedule).threads t).calls =
      (programs t).length := by
  refine runFrom_invariant (I := fun w : World τ => (w.threads t).calls = (programs t).length)
    (fun w turn _ h => ?_) (Nat.zero_add _)
  have hmove := Thread.step_move host w.shared turn.1 turn.2 (w.threads turn.1)
  by_cases hu : t = turn.1
  · rw [hu] at h ⊢
    simp only [World.step, Function.update_self]
    exact hmove.calls_eq.trans h
  · simp only [World.step, Function.update_of_ne hu]
    exact h

variable [Fintype τ]

/-- A bound on the steps that are left of a process. -/
def World.stepsLeft (w : World τ) : Nat := ∑ t, (w.threads t).stepsLeft

/-- A thread that does not wait takes the process nearer to its end. -/
theorem World.stepsLeft_lt {w : World τ} {turn : τ × Timestamp}
    (hturn : ¬ (w.threads turn.1).Blocked w.shared) :
    (w.step host turn).stepsLeft < w.stepsLeft := by
  have hless := (Thread.step_move host w.shared turn.1 turn.2 (w.threads turn.1)).stepsLeft_lt hturn
  have hsum := sum_update Thread.stepsLeft w.threads turn.1
    ((w.threads turn.1).step host w.shared turn.1 turn.2).2
  simp only [World.stepsLeft, World.step]
  omega

/-- Whatever the threads call: when each of them has its turn again and again, all calls return,
one answer for each. -/
theorem World.all_methods_return (host : Host) (programs : τ → List Call)
    (schedule : Nat → τ × Timestamp) (hfair : ∀ t n, ∃ m, n ≤ m ∧ (schedule m).1 = t) :
    ∃ n, ∀ t, let θ := (stateAfter (World.step host) (World.start programs) schedule n).threads t
    θ.Finished ∧ θ.answers.length = (programs t).length := by
  have hstay (w : World τ) (turn : τ × Timestamp) (hturn : (w.threads turn.1).Blocked w.shared) :
      w.step host turn = w := by
    rw [World.step, Thread.step_of_blocked hturn, Function.update_eq_self]
  obtain ⟨m, hm⟩ := exists_done_of_blocking (World.Invariant host)
    (fun w => ∀ t, (w.threads t).Finished) World.stepsLeft
    (fun w t => (w.threads t).Blocked w.shared) hfair (fun w turn h => h.step turn) hstay
    (fun w turn _ hturn => World.stepsLeft_lt hturn) (fun w h hw => h.exists_unblocked hw)
    (.start programs)
  refine ⟨m, fun t => ⟨hm t, ?_⟩⟩
  have hcalls := World.calls_run host programs ((List.range m).map schedule) t
  obtain ⟨hposition, htodo⟩ : ((runFrom (World.step host) (World.start programs)
    ((List.range m).map schedule)).threads t).Finished := hm t
  rw [Thread.calls, hposition, htodo] at hcalls
  exact hcalls

end Fair

/-- Two threads that share a logger take turns. -/
theorem World.all_methods_return_alternating :
    let host : Host := ⟨fun _ => none, default, false, fun _ => true, fun _ => true⟩
    let programs : Bool → List Call := fun _ =>
      [.ewtsInit (text "topmodel") true, .current (.log 20 (some (text "step")))]
    ∃ n, ∀ t, let θ := (stateAfter (World.step host) (World.start programs)
      (fun n => (decide (n % 2 = 0), default)) n).threads t
    θ.Finished ∧ θ.answers.length = (programs t).length := by
  refine World.all_methods_return _ _ _ fun t n => ?_
  cases t with
  | true => exact ⟨2 * n, by omega, by simp⟩
  | false => exact ⟨2 * n + 1, by omega, by simp⟩

end Ewts.Cpp
