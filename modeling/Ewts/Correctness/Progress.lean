import Ewts.Core.Lock
import Ewts.Core.Refinement
import Ewts.Correctness.Threads

/-!
# Every call returns

A thread that holds a mutex never waits for the other one while it holds it: the registry is
left before the files are locked. Under a fair schedule all calls return.
-/

namespace Ewts.C

variable {τ : Type} {env : Environ} {linked : Bool} {opens : Text → Bool}
  {s : Shared τ} {t : τ} {now : Timestamp} {θ : Thread} {r : Shared τ × Thread}

/-- The lines of a message, with one to spare. -/
def lineCount (msg : Text) : Nat := (strtokLines [] msg).length + 1

theorem length_standaloneLines_le (now : Timestamp) (padded : Text) (level : Int) (msg : Text) :
    (standaloneLines now padded level msg).length ≤ lineCount msg := by
  unfold standaloneLines lineCount
  simp only
  split
  · rename_i h
    rw [h]
    exact Nat.le_refl 1
  · rw [List.length_map]
    exact Nat.le_succ _

/-- The lines that a call may print. -/
def Call.lineCount (call : Call) : Nat :=
  match call.message with
  | some (_, msg) => C.lineCount msg
  | none => 0

/-- A bound on the steps that are left of the call of a thread. -/
def Position.rank : Position → Nat
  | .outside => 0
  | .search call rest => rest.length + 16 + call.lineCount
  | .found call | .create call => 14 + call.lineCount
  | .initialise call => 13 + call.lineCount
  | .announce call rest => rest.length + 8 + call.lineCount
  | .unlock call => 7 + call.lineCount
  | .act call => 6 + call.lineCount
  | .route _ _ msg => 5 + lineCount msg
  | .waiting _ _ msg _ => 4 + lineCount msg
  | .opening _ _ msg _ => 3 + lineCount msg
  | .write _ rest => rest.length + 1

/-- A bound on the steps of calls, where no list has more than `n` states. -/
def stepsOf (n : Nat) : List Call → Nat
  | [] => 0
  | call :: todo => n + 17 + call.lineCount + stepsOf n todo

/-- A bound on the steps that are left of a thread. -/
def Thread.rank (n : Nat) (θ : Thread) : Nat := θ.position.rank + stepsOf n θ.todo

/-- The calls of a thread that may still add a state. -/
def Thread.creators (θ : Thread) : Nat :=
  θ.todo.length + match θ.position with
    | .search .. | .create .. => 1
    | _ => 0

/-- The calls of a thread, those that have returned included. -/
def Thread.calls (θ : Thread) : Nat :=
  θ.answers.length + θ.todo.length + match θ.position with
    | .outside => 0
    | _ => 1

/-- A thread that does not wait comes nearer to its end. -/
theorem Thread.Move.rank_lt {n : Nat} (hmove : Thread.Move env linked opens s t now θ r)
    (h : ¬ θ.Blocked s) (hids : (ids s.loggers).length ≤ n) : r.2.rank n < θ.rank n := by
  cases hmove with
  | stay hblocked => exact absurd hblocked h
  | enter =>
    simp only [Thread.rank, Position.rank, stepsOf]
    omega
  | exhaust | hit | miss | create => simp [Thread.rank, Position.rank]
  | upgrade =>
    simp only
    split <;> simp [Thread.rank, Position.rank]
  | initialise => simp [Thread.rank, Position.rank, notices]
  | notice | announced | leave => simp [Thread.rank, Position.rank]
  | query | drop => simp [Thread.rank, Position.rank]
  | pass hmessage => simp [Thread.rank, Position.rank, Call.lineCount, hmessage]
  | bridge | alone | acquire => simp [Thread.rank, Position.rank]
  | @opened _ level msg read _ _ st _ =>
    have hlength := length_standaloneLines_le read st.ewtsIdPadded level msg
    simp only [Thread.rank, Position.rank]
    omega
  | print | release => simp [Thread.rank, Position.rank]

/-- A thread that waits does nothing. -/
theorem Thread.step_of_blocked (h : θ.Blocked s) :
    θ.step env linked opens s t now = (s, θ) := by
  obtain ⟨position, todo, answers⟩ := θ
  cases position with
  | outside =>
    cases todo with
    | nil => rfl
    | cons call todo =>
      obtain ⟨u, hu⟩ := Option.ne_none_iff_exists'.mp (h.resolve_left (List.cons_ne_nil call todo))
      simp only [Thread.step, hu]
  | waiting call level msg read =>
    obtain ⟨u, hu⟩ := Option.ne_none_iff_exists'.mp h
    simp only [Thread.step, hu]
  | _ => exact False.elim h

/-- A step adds a state only when its call may do so. -/
theorem Thread.Move.creators_le (hmove : Thread.Move env linked opens s t now θ r) :
    (ids r.1.loggers).length + r.2.creators ≤ (ids s.loggers).length + θ.creators := by
  cases hmove with
  | upgrade =>
    rw [ids_storeState]
    simp only
    split <;> simp [Thread.creators]
  | create =>
    simp only [ids, List.map_cons, List.length_cons, Thread.creators]
    omega
  | initialise | opened => simp [ids_storeState, Thread.creators]
  | enter =>
    simp only [Thread.creators, List.length_cons]
    omega
  | _ => simp [Thread.creators, Shared.print]

/-- No call is lost. -/
theorem Thread.Move.calls_eq (hmove : Thread.Move env linked opens s t now θ r) :
    r.2.calls = θ.calls := by
  cases hmove with
  | upgrade =>
    simp only
    split <;> rfl
  | enter | query | drop | bridge | release =>
    simp only [Thread.calls, List.length_cons, List.length_append, List.length_nil]
    omega
  | _ => rfl

section Fintype

variable [DecidableEq τ] [Fintype τ]

/-- All calls of a thread have returned. -/
def Thread.Finished (θ : Thread) : Prop := θ.position = .outside ∧ θ.todo = []

/-- What a fair schedule relies on, for `n` calls in all. -/
structure World.Bounded (n : Nat) (w : World τ) : Prop where
  invariant : w.Invariant
  bound : (ids w.shared.loggers).length + ∑ t, (w.threads t).creators ≤ n

theorem World.Bounded.step {n : Nat} {w : World τ} (h : w.Bounded n) (turn : τ × Timestamp) :
    (w.step env linked opens turn).Bounded n := by
  refine ⟨h.invariant.step turn, ?_⟩
  have hmove := Thread.step_move env linked opens w.shared turn.1 turn.2 (w.threads turn.1)
  have hcreators := hmove.creators_le
  have hsum := sum_update Thread.creators w.threads turn.1
    ((w.threads turn.1).step env linked opens w.shared turn.1 turn.2).2
  have hbound := h.bound
  simp only [World.step]
  omega

/-- A thread that does not wait lowers the rank. -/
theorem World.Bounded.rank_lt {n : Nat} {w : World τ} (h : w.Bounded n) {turn : τ × Timestamp}
    (hturn : ¬ (w.threads turn.1).Blocked w.shared) :
    ∑ t, ((w.step env linked opens turn).threads t).rank n < ∑ t, (w.threads t).rank n := by
  have hmove := Thread.step_move env linked opens w.shared turn.1 turn.2 (w.threads turn.1)
  have hless := hmove.rank_lt (n := n) hturn (by have := h.bound; omega)
  have hsum := sum_update (Thread.rank n) w.threads turn.1
    ((w.threads turn.1).step env linked opens w.shared turn.1 turn.2).2
  simp only [World.step]
  omega

end Fintype

/-- Nothing in the registry waits. -/
theorem Thread.InRegistry.not_blocked (h : θ.InRegistry) : ¬ θ.Blocked s := by
  obtain ⟨position, todo, answers⟩ := θ
  cases position with
  | outside | act | route | waiting | opening | write => exact False.elim h
  | search | found | create | initialise | announce | unlock => exact id

/-- Nothing at the files waits. -/
theorem Thread.InFiles.not_blocked (h : θ.InFiles) : ¬ θ.Blocked s := by
  obtain ⟨position, todo, answers⟩ := θ
  cases position with
  | opening | write => exact id
  | _ => exact False.elim h

/-- Until all calls have returned some thread can act: the owner of a mutex never waits. -/
theorem World.Invariant.exists_unblocked {w : World τ} (h : w.Invariant)
    (hw : ¬ ∀ t, (w.threads t).Finished) : ∃ t, ¬ (w.threads t).Blocked w.shared := by
  obtain ⟨t, ht⟩ := not_forall.mp hw
  by_cases hblocked : (w.threads t).Blocked w.shared
  · have hwaits := hblocked
    unfold Thread.Blocked at hwaits
    cases hp : (w.threads t).position with
    | outside =>
      rw [hp] at hwaits
      have hmutex := hwaits.resolve_left fun htodo => ht ⟨hp, htodo⟩
      obtain ⟨u, hu⟩ := Option.ne_none_iff_exists'.mp hmutex
      exact ⟨u, ((h.registry u).mpr hu).not_blocked⟩
    | waiting call level msg read =>
      rw [hp] at hwaits
      obtain ⟨u, hu⟩ := Option.ne_none_iff_exists'.mp hwaits
      exact ⟨u, ((h.files u).mpr hu).not_blocked⟩
    | _ =>
      rw [hp] at hwaits
      exact hwaits.elim
  · exact ⟨t, hblocked⟩

/-- At any time a thread has returned from its calls, is in one or has yet to make them. -/
theorem World.calls_run [DecidableEq τ] (env : Environ) (linked : Bool) (opens : Text → Bool)
    (programs : τ → List Call) (schedule : List (τ × Timestamp)) (t : τ) :
    ((runFrom (World.step env linked opens) (World.start programs) schedule).threads t).calls =
      (programs t).length := by
  refine runFrom_invariant (I := fun w : World τ => (w.threads t).calls = (programs t).length)
    (fun w turn _ h => ?_) (Nat.zero_add _)
  have hmove := Thread.step_move env linked opens w.shared turn.1 turn.2 (w.threads turn.1)
  by_cases hu : t = turn.1
  · rw [hu] at h ⊢
    simp only [World.step, Function.update_self]
    exact hmove.calls_eq.trans h
  · simp only [World.step, Function.update_of_ne hu]
    exact h

/-- Whatever the threads call: when each of them has its turn again and again, all calls return,
one answer for each. -/
theorem World.all_calls_return [DecidableEq τ] [Fintype τ] (env : Environ) (linked : Bool)
    (opens : Text → Bool) (programs : τ → List Call) (schedule : Nat → τ × Timestamp)
    (hfair : ∀ t n, ∃ m, n ≤ m ∧ (schedule m).1 = t) :
    ∃ n, ∀ t, let θ := (stateAfter (World.step env linked opens) (World.start programs)
      schedule n).threads t
    θ.Finished ∧ θ.answers.length = (programs t).length := by
  let n := ∑ t, ((World.start programs).threads t).creators
  have hstart : (World.start programs).Bounded n := ⟨.start programs, (Nat.zero_add _).le⟩
  have hstay (w : World τ) (turn : τ × Timestamp) (hturn : (w.threads turn.1).Blocked w.shared) :
      w.step env linked opens turn = w := by
    rw [World.step, Thread.step_of_blocked hturn, Function.update_eq_self]
  obtain ⟨m, hm⟩ := exists_done_of_blocking (World.Bounded n)
    (fun w => ∀ t, (w.threads t).Finished) (fun w => ∑ t, (w.threads t).rank n)
    (fun w t => (w.threads t).Blocked w.shared) hfair (fun w turn h => h.step turn) hstay
    (fun w turn h hturn => h.rank_lt hturn) (fun w h hw => h.invariant.exists_unblocked hw) hstart
  refine ⟨m, fun t => ⟨hm t, ?_⟩⟩
  have hcalls := World.calls_run env linked opens programs ((List.range m).map schedule) t
  obtain ⟨hposition, htodo⟩ : ((runFrom (World.step env linked opens) (World.start programs)
    ((List.range m).map schedule)).threads t).Finished := hm t
  rw [Thread.calls, hposition, htodo] at hcalls
  exact hcalls

/-- Two threads that take turns. -/
theorem World.all_calls_return_alternating :
    let programs : Bool → List Call := fun _ =>
      [.ewtsInit (some (text "topmodel")) true, .log 20 (some (text "step"))]
    ∃ n, ∀ t, let θ := (stateAfter (World.step (fun _ => none) false fun _ => true)
      (World.start programs) (fun n => (decide (n % 2 = 0), default)) n).threads t
    θ.Finished ∧ θ.answers.length = (programs t).length := by
  refine World.all_calls_return _ _ _ _ _ fun t n => ?_
  cases t with
  | true => exact ⟨2 * n, by omega, by simp⟩
  | false => exact ⟨2 * n + 1, by omega, by simp⟩

end Ewts.C
