import Ewts.Core.Lock
import Ewts.Core.Refinement
import Ewts.Correctness.Threads

/-!
# Every state is announced once

`init_logger_state` prints what it found in the environment. Whatever the threads do, the
notices of a state stand on `stdout` once, in one piece and in the order of creation.
-/

namespace Ewts.C

variable {τ : Type} {env : Environ} {linked : Bool} {opens : Text → Bool}

/-- The notices among what is printed. -/
def noticesOf (printed : List Printed) : List Text :=
  printed.filterMap fun
    | .notice notice => some notice
    | .line _ => none

/-- The notices of a new state. -/
def noticesOfNew (env : Environ) (linked : Bool) (made : Text × Bool) : List Text :=
  notices env linked (initLoggerState env (.alloc made.1 made.2))

/-- The state that the next step of a thread adds: its key and its route flag. -/
def Thread.creation (θ : Thread) : List (Text × Bool) :=
  match θ.position with
  | .create call => [(call.key, call.ewtsNgen)]
  | _ => []

/-- The state that a step of the process adds. -/
def World.creation (w : World τ) (turn : τ × Timestamp) : List (Text × Bool) :=
  (w.threads turn.1).creation

/-- The notices that a thread has yet to print. -/
def Thread.unannounced (env : Environ) (linked : Bool) (loggers : List LoggerState) (θ : Thread) :
    List Text :=
  match θ.position with
  | .initialise call => notices env linked (view env loggers call.key)
  | .announce _ rest => rest
  | _ => []

/-- The notices that the thread with the registry has yet to print. -/
def World.unannounced (env : Environ) (linked : Bool) (w : World τ) : List Text :=
  held w.shared.registryMutex w.threads (Thread.unannounced env linked w.shared.loggers)

/-- The thread is about to initialise the state of this key. -/
def Thread.Initialises (θ : Thread) (key : Text) : Prop :=
  match θ.position with
  | .initialise call => call.key = key
  | _ => False

/-- What has been announced of the states that were made, in this order. -/
structure Announced (env : Environ) (linked : Bool) (w : World τ) (made : List (Text × Bool)) :
    Prop where
  keys : made.map Prod.fst = (ids w.shared.loggers).reverse
  known : ∀ key ∈ ids w.shared.loggers,
    Known w.shared.loggers key ∨ ∃ t, (w.threads t).Initialises key
  notices : noticesOf (w.shared.out .stdout) ++ w.unannounced env linked =
    made.flatMap (noticesOfNew env linked)
  files : ∀ path, noticesOf (w.shared.out (.file path)) = []

section Moves

variable {s : Shared τ} {t : τ} {now : Timestamp} {θ : Thread} {r : Shared τ × Thread}

theorem noticesOf_print_line (sink : Sink) (line : Text) (other : Sink) :
    noticesOf ((s.print sink (.line line)).out other) = noticesOf (s.out other) := by
  by_cases h : other = sink <;> simp [noticesOf, Shared.print, h]

theorem noticesOf_print_notice (sink : Sink) (notice : Text) (other : Sink) :
    noticesOf ((s.print sink (.notice notice)).out other) =
      noticesOf (s.out other) ++ if other = sink then [notice] else [] := by
  by_cases h : other = sink <;> simp [noticesOf, Shared.print, h]

theorem Thread.unannounced_of_not_inRegistry (loggers : List LoggerState) (h : ¬ θ.InRegistry) :
    θ.unannounced env linked loggers = [] := by
  obtain ⟨position, todo, answers⟩ := θ
  cases position with
  | initialise | announce => exact absurd trivial h
  | _ => rfl

theorem Thread.creation_of_not_inRegistry (h : ¬ θ.InRegistry) : θ.creation = [] := by
  obtain ⟨position, todo, answers⟩ := θ
  cases position with
  | create => exact absurd trivial h
  | _ => rfl

theorem Thread.creation_of_blocked (h : θ.Blocked s) : θ.creation = [] := by
  obtain ⟨position, todo, answers⟩ := θ
  cases position with
  | outside | waiting => rfl
  | _ => exact False.elim h

/-- The notices of a new state are those that its thread prints from then on. -/
theorem Thread.Move.announces (hmove : Thread.Move env linked opens s t now θ r)
    (hsound : θ.position.Sound s.loggers)
    (hfound : ∀ call, θ.position = .found call →
      (stateOf s.loggers call.key).initialized = true) :
    noticesOf (r.1.out .stdout) ++ r.2.unannounced env linked r.1.loggers =
      noticesOf (s.out .stdout) ++ (θ.unannounced env linked s.loggers ++
        θ.creation.flatMap (noticesOfNew env linked)) := by
  cases hmove with
  | stay h => rw [Thread.creation_of_blocked h, List.flatMap_nil, List.append_nil]
  | @upgrade call => simp only [if_pos (hfound call rfl)]; rfl
  | @create call =>
    have hid : (LoggerState.alloc call.key call.ewtsNgen).ewtsId = call.key :=
      take_loggerKey call.ewtsId
    have hview : view env (.alloc call.key call.ewtsNgen :: s.loggers) call.key =
        initLoggerState env (.alloc call.key call.ewtsNgen) := by
      rw [view, stateOf_cons, hid, Function.update_self]
    simp only [Thread.unannounced, Thread.creation, hview]
    rfl
  | @notice call notice rest =>
    rw [noticesOf_print_notice, if_pos rfl, List.append_assoc]
    simp [Thread.unannounced, Thread.creation]
  | print =>
    rw [noticesOf_print_line]
    rfl
  | initialise | announced => rfl
  | _ => rfl

/-- Only `stdout` has notices. -/
theorem Thread.Move.notices_file (hmove : Thread.Move env linked opens s t now θ r) (path : Text) :
    noticesOf (r.1.out (.file path)) = noticesOf (s.out (.file path)) := by
  cases hmove with
  | notice => simp [noticesOf_print_notice]
  | print => rw [noticesOf_print_line]
  | _ => rfl

/-- A state is made by its creation only. -/
theorem Thread.Move.creation (hmove : Thread.Move env linked opens s t now θ r) :
    (ids r.1.loggers).reverse = (ids s.loggers).reverse ++ θ.creation.map Prod.fst := by
  cases hmove with
  | stay h => rw [Thread.creation_of_blocked h, List.map_nil, List.append_nil]
  | upgrade | initialise | opened =>
    rw [ids_storeState]
    exact (List.append_nil _).symm
  | @create call =>
    have hid : (LoggerState.alloc call.key call.ewtsNgen).ewtsId = call.key :=
      take_loggerKey call.ewtsId
    simp only [ids, List.map_cons, List.reverse_cons, hid]
    rfl
  | _ => exact (List.append_nil _).symm

/-- Every state is initialised, or the thread that has made it is about to do so. -/
theorem Thread.Move.known (hmove : Thread.Move env linked opens s t now θ r)
    (hsound : Thread.StepSound s θ r)
    (hfound : ∀ call, θ.position = .found call →
      (stateOf s.loggers call.key).initialized = true) {key : Text}
    (hkey : key ∈ ids r.1.loggers)
    (h : key ∈ ids s.loggers → Known s.loggers key ∨ θ.Initialises key) :
    Known r.1.loggers key ∨ r.2.Initialises key := by
  cases hmove with
  | stay => exact h hkey
  | upgrade | opened =>
    rw [ids_storeState] at hkey
    exact Or.inl (hsound.grows key ((h hkey).resolve_right id)).1
  | @create call =>
    have hid : (LoggerState.alloc call.key call.ewtsNgen).ewtsId = call.key :=
      take_loggerKey call.ewtsId
    rw [ids, List.map_cons, List.mem_cons, hid] at hkey
    rcases hkey with rfl | hkey
    · exact Or.inr rfl
    · exact Or.inl (hsound.grows key ((h hkey).resolve_right id)).1
  | @initialise call =>
    rw [ids_storeState] at hkey
    rcases h hkey with hknown | rfl
    · exact Or.inl (hsound.grows key hknown).1
    · exact Or.inl hsound.sound
  | _ => exact (h hkey).imp_right False.elim

/-- The notices of other threads stay as they are. -/
theorem Thread.Move.unannounced_other (hmove : Thread.Move env linked opens s t now θ r)
    (hθ : ¬ θ.InRegistry) (hsound : θ.position.Sound s.loggers) (θ' : Thread) :
    θ'.unannounced env linked r.1.loggers = θ'.unannounced env linked s.loggers := by
  cases hmove with
  | upgrade | create | initialise => exact absurd trivial hθ
  | @opened call level msg read _ _ st hst =>
    obtain ⟨file, hfile⟩ := openStandaloneFile_eq env opens now (stateOf s.loggers call.key)
    have hid : st.ewtsId = call.key := by
      rw [hst, hfile]
      exact ewtsId_stateOf hsound.1.1
    have hinit : initLoggerState env st = st := by
      refine initLoggerState_of_initialized ?_
      rw [hst, hfile]
      exact hsound.1.2
    have hview (key : Text) : notices env linked (view env (storeState st s.loggers) key) =
        notices env linked (view env s.loggers key) := by
      rw [view_storeState (hid.symm ▸ hsound.1.1), hid, hinit]
      by_cases hkey : key = call.key
      · rw [hkey, Function.update_self, hst, hfile, view,
          initLoggerState_of_initialized hsound.1.2]
        rfl
      · rw [Function.update_of_ne hkey]
    unfold Thread.unannounced
    split
    · exact hview _
    · rfl
    · rfl
  | _ => rfl

end Moves

section Run

variable {w : World τ} {made : List (Text × Bool)}

/-- While one thread has found its state, every state is initialised. -/
theorem Announced.initialized (h : Announced env linked w made) (hinv : w.Invariant) {t : τ}
    {call : Call} (ht : (w.threads t).position = .found call) :
    (stateOf w.shared.loggers call.key).initialized = true := by
  have hsound := hinv.sound t
  rw [ht] at hsound
  have hin : (w.threads t).InRegistry := by
    rw [Thread.InRegistry, ht]
    trivial
  rcases h.known call.key hsound with hknown | ⟨u, hu⟩
  · exact hknown.2
  · exfalso
    have hu' : (w.threads u).InRegistry := by
      unfold Thread.Initialises at hu
      unfold Thread.InRegistry
      split at hu
      · rename_i hposition
        rw [hposition]
        trivial
      · exact hu.elim
    rw [hinv.registry.unique hu' hin, Thread.Initialises, ht] at hu
    exact hu

variable [DecidableEq τ]

/-- Each step announces what it has made. -/
theorem Announced.step (h : Announced env linked w made) (hinv : w.Invariant)
    (turn : τ × Timestamp) :
    Announced env linked (w.step env linked opens turn) (made ++ w.creation turn) := by
  obtain ⟨t, now⟩ := turn
  have hmove := Thread.step_move env linked opens w.shared t now (w.threads t)
  have hsound := hmove.stepSound hinv.nodup (hinv.sound t)
  have hfound (call : Call) (ht : (w.threads t).position = .found call) :=
    h.initialized hinv ht
  have hannounces := hmove.announces (hinv.sound t) hfound
  constructor
  · rw [List.map_append, h.keys]
    exact hmove.creation.symm
  · intro key hkey
    by_cases hother : ∃ u, u ≠ t ∧ (w.threads u).Initialises key
    · obtain ⟨u, hne, hu⟩ := hother
      refine Or.inr ⟨u, ?_⟩
      simpa only [World.step, Function.update_of_ne hne] using hu
    · rw [not_exists] at hother
      have hmine (hmem : key ∈ ids w.shared.loggers) :
          Known w.shared.loggers key ∨ (w.threads t).Initialises key := by
        rcases h.known key hmem with hknown | ⟨u, hu⟩
        · exact Or.inl hknown
        · by_cases hut : u = t
          · exact Or.inr (hut ▸ hu)
          · exact absurd ⟨hut, hu⟩ (hother u)
      refine (hmove.known hsound hfound hkey hmine).imp_right fun ht => ⟨t, ?_⟩
      simpa only [World.step, Function.update_self] using ht
  · rw [List.flatMap_append, ← h.notices, List.append_assoc]
    have hguard := hinv.registry
    have hguard' := (hmove.guards hinv.registry hinv.files).1
    have hnone (loggers : List LoggerState) (θ : Thread) (hθ : ¬ θ.InRegistry) :
        θ.unannounced env linked loggers = [] := Thread.unannounced_of_not_inRegistry loggers hθ
    by_cases hside : (w.threads t).InRegistry ∨
        ((w.threads t).step env linked opens w.shared t now).2.InRegistry
    · obtain ⟨hbefore, hafter⟩ := hguard.held_of_inside hguard' (hnone w.shared.loggers)
        (hnone _) hside
      rw [World.unannounced, World.unannounced, hbefore]
      exact (congrArg _ hafter).trans hannounces
    · rw [not_or] at hside
      have hsame := hguard.held_of_outside hguard' hside.1 hside.2 fun u _ =>
        hmove.unannounced_other hside.1 (hinv.sound t) (w.threads u)
      rw [hnone _ _ hside.1, hnone _ _ hside.2, List.append_nil, List.nil_append] at hannounces
      have hcreation := Thread.creation_of_not_inRegistry hside.1
      rw [hcreation, List.flatMap_nil, List.append_nil] at hannounces
      rw [World.creation, hcreation, List.flatMap_nil, List.append_nil, World.unannounced,
        World.unannounced]
      exact congrArg₂ (· ++ ·) hannounces hsame
  · exact fun path => (hmove.notices_file path).trans (h.files path)

/-- Whatever the threads do, the states are made one by one with different keys, and `stdout`
shows the notices of each of them once, in one piece, in this order. -/
theorem World.announced_run (programs : τ → List Call) (schedule : List (τ × Timestamp)) :
    let w := runFrom (World.step env linked opens) (World.start programs) schedule
    let made := effects (World.step env linked opens) World.creation (World.start programs) schedule
    (made.map Prod.fst).Nodup ∧ Announced env linked w made := by
  obtain ⟨hinv, h⟩ := effects_invariant
    (R := fun (w : World τ) made => w.Invariant ∧ Announced env linked w made)
    (fun w made turn h => ⟨h.1.step turn, h.2.step h.1 turn⟩)
    ⟨.start programs, ⟨rfl, fun _ h => absurd h List.not_mem_nil, rfl, fun _ => rfl⟩⟩
  refine ⟨?_, h⟩
  rw [h.keys, List.nodup_reverse]
  exact hinv.nodup

end Run

end Ewts.C
