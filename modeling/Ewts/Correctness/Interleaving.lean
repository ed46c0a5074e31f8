import Ewts.Correctness.Threads
import Mathlib.Data.Fintype.Basic

/-!
# Every interleaving is a serial run

A call takes effect in one step: `EwtsInit` when it settles the route flag, a message when it
is dropped, bridged or when its file is open, a query when it returns. The lines that a thread
has yet to print are already printed in the serial run. Only the thread with the write mutex
has such lines.
-/

namespace Ewts.C

variable {τ : Type} {env : Environ} {linked : Bool} {opens : Text → Bool}

instance (st : LoggerState) (level : Int) : Decidable (st.Drops level) :=
  inferInstanceAs (Decidable (_ ∨ _))

instance (st : LoggerState) : Decidable (st.Bridges env linked) :=
  inferInstanceAs (Decidable (_ = true))

/-! ## Calls -/

namespace Call

/-- The calls of `EwtsInit`. -/
def isInit : Call → Bool
  | ewtsInit _ _ => true
  | _ => false

variable {call : Call}

/-- `EwtsInit` only touches the registry. -/
theorem of_isInit (h : call.isInit = true) :
    call.message = none ∧ ∀ st, call.answer st = .done := by
  cases call with
  | ewtsInit => exact ⟨rfl, fun _ => rfl⟩
  | _ => cases h

theorem ewtsNgen_of_not_isInit (h : call.isInit = false) : call.ewtsNgen = false := by
  cases call with
  | ewtsInit => cases h
  | _ => rfl

/-- A call that logs returns nothing and leaves the route flag alone. -/
theorem of_message {level : Int} {msg : Text} (h : call.message = some (level, msg)) :
    call.isInit = false ∧ call.ewtsNgen = false ∧ ∀ st, call.answer st = .done := by
  cases call with
  | ewtsLogModule | log => exact ⟨rfl, rfl, fun _ => rfl⟩
  | _ => cases h

end Call

/-- The state of a call has its key as its id. -/
theorem ewtsId_view (env : Environ) (loggers : List LoggerState) (call : Call) :
    (view env loggers call.key).ewtsId = call.key := by
  rw [view, ewtsId_initLoggerState]
  by_cases h : call.key ∈ ids loggers
  · exact ewtsId_stateOf h
  · rw [stateOf_of_not_mem h]
    exact take_loggerKey call.ewtsId

theorem view_of_known (env : Environ) {loggers : List LoggerState} {key : Text}
    (h : Known loggers key) : view env loggers key = stateOf loggers key :=
  initLoggerState_of_initialized h.2

/-! ## One call of a serial run -/

section Serial

variable {s : Serial τ} {op : Operation τ} {level : Int} {msg : Text}

theorem Serial.deliver_answers (s : Serial τ) (output : Option Output) :
    (s.deliver output).answers = s.answers := by
  cases output with
  | none => rfl
  | some output => cases output <;> rfl

variable [DecidableEq τ]

/-- Each call adds its answer. -/
theorem Serial.step_answers (s : Serial τ) (op : Operation τ) :
    (s.step env opens op).answers = Function.update s.answers op.thread
      (s.answers op.thread ++
        [op.call.answer ((view env s.loggers op.call.key).upgrade op.call.ewtsNgen)]) := by
  rw [Call.key, ← getLoggerState_fst env s.loggers op.call.ewtsId op.call.ewtsNgen, Serial.step]
  split
  · rfl
  · exact Serial.deliver_answers ..

/-- A call without a message at most turns the route flag on. -/
theorem Serial.step_of_none (h : op.call.message = none) :
    view env (s.step env opens op).loggers = Function.update (view env s.loggers) op.call.key
        ((view env s.loggers op.call.key).upgrade op.call.ewtsNgen) ∧
      (s.step env opens op).out = s.out ∧ (s.step env opens op).bridged = s.bridged := by
  have hview := view_getLoggerState env s.loggers op.call.ewtsId op.call.ewtsNgen
  simp only [Serial.step, h]
  exact ⟨hview, trivial, trivial⟩

/-- A message writes its state back and is handed on. -/
theorem Serial.step_of_message (h : op.call.message = some (level, msg)) {output : Option Output}
    {st : LoggerState} (hlog : vLogAt env opens op.route op.read op.opened
      (view env s.loggers op.call.key) level msg = (output, st))
    (hid : st.ewtsId = op.call.key) (hinit : st.initialized = true) :
    view env (s.step env opens op).loggers = Function.update (view env s.loggers) op.call.key st ∧
      (s.step env opens op).out = (s.deliver output).out ∧
      (s.step env opens op).bridged = (s.deliver output).bridged := by
  have hfst := getLoggerState_fst env s.loggers op.call.ewtsId false
  rw [LoggerState.upgrade_false, ← Call.key] at hfst
  have hmem : st.ewtsId ∈ ids (getLoggerState env s.loggers op.call.ewtsId false).2 :=
    hid ▸ mem_ids_getLoggerState env s.loggers op.call.ewtsId false
  have hview : view env (storeState st (getLoggerState env s.loggers op.call.ewtsId false).2) =
      Function.update (view env s.loggers) op.call.key st := by
    rw [view_storeState hmem, view_getLoggerState, hid, Call.key, Function.update_idem,
      initLoggerState_of_initialized hinit]
  simp only [Serial.step, h, (Call.of_message h).2.1, hfst, hlog]
  cases output with
  | none => exact ⟨hview, rfl, rfl⟩
  | some output => cases output <;> exact ⟨hview, rfl, rfl⟩

/-- A message that the filter drops does nothing. -/
theorem Serial.step_of_drops (h : op.call.message = some (level, msg))
    (hdrops : (view env s.loggers op.call.key).Drops level) :
    view env (s.step env opens op).loggers = view env s.loggers ∧
      (s.step env opens op).out = s.out ∧ (s.step env opens op).bridged = s.bridged := by
  have hlog : vLogAt env opens op.route op.read op.opened (view env s.loggers op.call.key) level
      msg = (none, view env s.loggers op.call.key) := if_pos hdrops
  have hstep := Serial.step_of_message h hlog (ewtsId_view ..) initialized_initLoggerState
  rwa [Function.update_eq_self] at hstep

/-- A message that takes the route to the bridge. -/
theorem Serial.step_of_route (h : op.call.message = some (level, msg))
    (hpasses : ¬ (view env s.loggers op.call.key).Drops level) (hroute : op.route = true) :
    view env (s.step env opens op).loggers = view env s.loggers ∧
      (s.step env opens op).out = s.out ∧
      (s.step env opens op).bridged = s.bridged ++ [(op.call.key, level, msg)] := by
  have hlog : vLogAt env opens op.route op.read op.opened (view env s.loggers op.call.key) level
      msg = (some (.bridge (view env s.loggers op.call.key).ewtsId level msg),
        view env s.loggers op.call.key) := (if_neg hpasses).trans (if_pos hroute)
  have hstep := Serial.step_of_message h hlog (ewtsId_view ..) initialized_initLoggerState
  rw [Function.update_eq_self, ewtsId_view] at hstep
  exact hstep

/-- A message that stays in the process opens its file and writes its lines. -/
theorem Serial.step_of_alone (h : op.call.message = some (level, msg))
    (hpasses : ¬ (view env s.loggers op.call.key).Drops level) (hroute : op.route = false)
    {st : LoggerState}
    (hst : st = openStandaloneFile env opens op.opened (view env s.loggers op.call.key)) :
    view env (s.step env opens op).loggers =
        Function.update (view env s.loggers) op.call.key st ∧
      (s.step env opens op).out = Function.update s.out (st.file.getD .stdout)
        (s.out (st.file.getD .stdout) ++ standaloneLines op.read st.ewtsIdPadded level msg) ∧
      (s.step env opens op).bridged = s.bridged := by
  obtain ⟨hid, hinit, -⟩ :=
    openStandaloneFile_keeps env opens op.opened (view env s.loggers op.call.key)
  rw [← hst] at hid hinit
  have hlog : vLogAt env opens op.route op.read op.opened (view env s.loggers op.call.key) level
      msg =
        (some (.standalone st.file (standaloneLines op.read st.ewtsIdPadded level msg)), st) := by
    rw [hst]
    exact (if_neg hpasses).trans (if_neg (by rw [hroute]; exact Bool.false_ne_true))
  exact Serial.step_of_message h hlog (hid.trans (ewtsId_view ..))
    (hinit.trans initialized_initLoggerState)

end Serial

/-! ## When calls take effect -/

/-- The lines among what is printed. -/
def linesOf (printed : List Printed) : List Text :=
  printed.filterMap fun
    | .line line => some line
    | .notice _ => none

/-- The calls that take effect in the next step of a thread. -/
def Thread.effect (env : Environ) (linked : Bool) (s : Shared τ) (t : τ) (now : Timestamp)
    (θ : Thread) : List (Operation τ) :=
  match θ.position with
  | .found call | .create call => if call.isInit then [⟨t, call, false, now, now⟩] else []
  | .act call =>
    match call.message with
    | none => if call.isInit then [] else [⟨t, call, false, now, now⟩]
    | some (level, _) =>
      if (stateOf s.loggers call.key).Drops level then [⟨t, call, false, now, now⟩] else []
  | .route call _ _ =>
    if (stateOf s.loggers call.key).Bridges env linked then [⟨t, call, true, now, now⟩] else []
  | .opening call _ _ read => [⟨t, call, false, read, now⟩]
  | _ => []

/-- The calls that take effect in a step of the process. -/
def World.effect (env : Environ) (linked : Bool) (w : World τ) (turn : τ × Timestamp) :
    List (Operation τ) :=
  (w.threads turn.1).effect env linked w.shared turn.1 turn.2

/-- The call of a thread that has begun and has yet to take effect. -/
def Thread.owed (θ : Thread) : List Call :=
  match θ.position with
  | .search call _ | .found call | .create call => [call]
  | .initialise call | .announce call _ | .unlock call | .act call =>
    if call.isInit then [] else [call]
  | .route call _ _ | .waiting call _ _ _ | .opening call _ _ _ => [call]
  | .outside | .write _ _ => []

/-- The answer of a call that has taken effect and has yet to return. -/
def Thread.due (θ : Thread) : List Answer :=
  match θ.position with
  | .initialise call | .announce call _ | .unlock call | .act call =>
    if call.isInit then [.done] else []
  | .write _ _ => [.done]
  | _ => []

/-- The lines that a thread has yet to print to a stream. -/
def Thread.unwritten (θ : Thread) (sink : Sink) : List Text :=
  match θ.position with
  | .write file rest => if sink = file then rest else []
  | _ => []

/-- The lines that the thread with the write mutex has yet to print. -/
def World.unwritten (w : World τ) (sink : Sink) : List Text :=
  match w.shared.writeMutex with
  | some t => (w.threads t).unwritten sink
  | none => []

/-- A process and a serial run that has done the same. -/
structure Refines (env : Environ) (w : World τ) (s : Serial τ) : Prop where
  view : view env w.shared.loggers = view env s.loggers
  out : ∀ sink, linesOf (w.shared.out sink) ++ w.unwritten sink = s.out sink
  bridged : w.shared.bridged = s.bridged
  answers : ∀ t, (w.threads t).answers ++ (w.threads t).due = s.answers t

section Print

variable (s : Shared τ) (sink : Sink)

theorem Shared.print_out (p : Printed) (other : Sink) :
    (s.print sink p).out other = s.out other ++ if other = sink then [p] else [] := by
  by_cases h : other = sink
  · simp [Shared.print, h]
  · simp [Shared.print, h]

/-- Notices are no lines. -/
theorem linesOf_print_notice (notice : Text) (other : Sink) :
    linesOf ((s.print sink (.notice notice)).out other) = linesOf (s.out other) := by
  rw [Shared.print_out, linesOf, List.filterMap_append]
  split <;> exact List.append_nil _

theorem linesOf_print_line (line : Text) (other : Sink) :
    linesOf ((s.print sink (.line line)).out other) =
      linesOf (s.out other) ++ if other = sink then [line] else [] := by
  rw [Shared.print_out, linesOf, List.filterMap_append]
  split <;> rfl

end Print

section Refinement

variable [DecidableEq τ] {w : World τ} {s s' : Serial τ} {t : τ} {now : Timestamp} {θ θ' : Thread}
  {shared : Shared τ} {op : Operation τ}

/-- A step away from the files leaves the lines to print as they are. -/
theorem World.unwritten_same (hθ : w.threads t = θ)
    (hmutex : shared.writeMutex = w.shared.writeMutex) (hsame : θ'.unwritten = θ.unwritten) :
    World.unwritten ⟨shared, Function.update w.threads t θ'⟩ = w.unwritten := by
  ext1 sink
  rw [World.unwritten, World.unwritten, hmutex]
  cases w.shared.writeMutex with
  | none => rfl
  | some u =>
    by_cases hu : u = t
    · simp only [hu, Function.update_self, hsame, hθ]
    · simp only [Function.update_of_ne hu]

/-- The lines of the thread with the write mutex. -/
theorem World.unwritten_owner (hmutex : shared.writeMutex = some t) :
    World.unwritten ⟨shared, Function.update w.threads t θ'⟩ = θ'.unwritten := by
  ext1 sink
  rw [World.unwritten, hmutex]
  simp only [Function.update_self]

/-- What a step leaves to print. -/
abbrev World.unwrittenAfter (w : World τ) (t : τ) (shared : Shared τ) (θ' : Thread) :
    Sink → List Text :=
  World.unwritten ⟨shared, Function.update w.threads t θ'⟩

/-- A step in which nothing takes effect. -/
theorem Refines.silent (h : Refines env w s) (hθ : w.threads t = θ)
    (hview : C.view env shared.loggers = C.view env w.shared.loggers)
    (hout : ∀ sink, linesOf (shared.out sink) ++ w.unwrittenAfter t shared θ' sink =
      linesOf (w.shared.out sink) ++ w.unwritten sink)
    (hbridged : shared.bridged = w.shared.bridged)
    (hanswers : θ'.answers ++ θ'.due = θ.answers ++ θ.due) :
    Refines env ⟨shared, Function.update w.threads t θ'⟩ s := by
  constructor
  · exact hview.trans h.view
  · exact fun sink => (hout sink).trans (h.out sink)
  · exact hbridged.trans h.bridged
  · intro u
    by_cases hu : u = t
    · simp only [hu, Function.update_self, hanswers]
      rw [← hθ]
      exact h.answers t
    · simp only [Function.update_of_ne hu]
      exact h.answers u

/-- A step in which a call takes effect. -/
theorem Refines.effective (h : Refines env w s) (hθ : w.threads t = θ) (hop : op.thread = t)
    (hview : C.view env shared.loggers = C.view env (s.step env opens op).loggers)
    (hout : ∀ sink, linesOf (shared.out sink) ++ w.unwrittenAfter t shared θ' sink =
      (s.step env opens op).out sink)
    (hbridged : shared.bridged = (s.step env opens op).bridged)
    (hanswers : θ'.answers ++ θ'.due = θ.answers ++ θ.due ++
      [op.call.answer ((C.view env w.shared.loggers op.call.key).upgrade op.call.ewtsNgen)]) :
    Refines env ⟨shared, Function.update w.threads t θ'⟩ (s.step env opens op) := by
  refine ⟨hview, hout, hbridged, fun u => ?_⟩
  rw [Serial.step_answers, ← h.view, hop]
  by_cases hu : u = t
  · simp only [hu, Function.update_self, hanswers]
    rw [← h.answers t, hθ]
  · simp only [Function.update_of_ne hu]
    exact h.answers u

/-- Nothing is printed by a step that leaves the streams alone. -/
theorem Refines.out_same (hθ : w.threads t = θ) (hout : shared.out = w.shared.out)
    (hmutex : shared.writeMutex = w.shared.writeMutex) (hsame : θ'.unwritten = θ.unwritten)
    (sink : Sink) : linesOf (shared.out sink) ++ w.unwrittenAfter t shared θ' sink =
      linesOf (w.shared.out sink) ++ w.unwritten sink := by
  rw [hout, World.unwrittenAfter, World.unwritten_same hθ hmutex hsame]

/-- Only the thread with the write mutex has lines to print. -/
theorem Refines.out_owner (howner : shared.writeMutex = some t) {sink : Sink} {lines : List Text}
    (hout : linesOf (shared.out sink) ++ θ'.unwritten sink = lines) :
    linesOf (shared.out sink) ++ w.unwrittenAfter t shared θ' sink = lines := by
  rw [World.unwrittenAfter, World.unwritten_owner howner, hout]

/-- The route flag of a call is settled: `EwtsInit` takes effect, other calls change nothing. -/
theorem Refines.settle (h : Refines env w s) (hθ : w.threads t = θ) {call : Call}
    (hview : C.view env shared.loggers = Function.update (C.view env w.shared.loggers) call.key
      ((C.view env w.shared.loggers call.key).upgrade call.ewtsNgen))
    (hout : ∀ sink, linesOf (shared.out sink) ++ w.unwrittenAfter t shared θ' sink =
      linesOf (w.shared.out sink) ++ w.unwritten sink)
    (hbridged : shared.bridged = w.shared.bridged)
    (hanswers : θ'.answers ++ θ'.due =
      θ.answers ++ θ.due ++ if call.isInit then [.done] else []) :
    Refines env ⟨shared, Function.update w.threads t θ'⟩ (runFrom (Serial.step env opens) s
      (if call.isInit then [⟨t, call, false, now, now⟩] else [])) := by
  by_cases hcall : call.isInit = true
  · obtain ⟨hmessage, hdone⟩ := Call.of_isInit hcall
    have hstep : C.view env (s.step env opens ⟨t, call, false, now, now⟩).loggers = _ ∧ _ ∧ _ :=
      Serial.step_of_none hmessage
    obtain ⟨hview', hout', hbridged'⟩ := hstep
    simp only [if_pos hcall] at hanswers ⊢
    refine h.effective hθ rfl ?_ (fun sink => ?_) ?_ ?_
    · rw [hview, hview', h.view]
    · rw [hout, h.out, hout']
    · rw [hbridged, h.bridged, hbridged']
    · rw [hanswers, hdone]
  · rw [Bool.not_eq_true] at hcall
    simp only [hcall, Bool.false_eq_true, if_false, List.append_nil] at hanswers ⊢
    refine h.silent hθ ?_ hout hbridged hanswers
    rw [hview, Call.ewtsNgen_of_not_isInit hcall, LoggerState.upgrade_false,
      Function.update_eq_self]

omit [DecidableEq τ] in
/-- Nothing takes effect in a thread that waits. -/
theorem Thread.effect_of_blocked {s : Shared τ} (h : θ.Blocked s) :
    θ.effect env linked s t now = [] := by
  obtain ⟨position, todo, answers⟩ := θ
  cases position with
  | outside | waiting => rfl
  | _ => exact h.elim

/-! ### Lookups -/

section Lookup

variable {call : Call} {todo : List Call} {answers : List Answer}

/-- The lookup sets the flag of the state that it has found. -/
theorem Refines.upgrade (h : Refines env w s) (hθ : w.threads t = ⟨.found call, todo, answers⟩)
    (hmem : call.key ∈ ids w.shared.loggers) {position : Position}
    (hposition : position = .unlock call ∨ position = .initialise call) :
    Refines env
      ⟨{ w.shared with
          loggers := storeState ((stateOf w.shared.loggers call.key).upgrade call.ewtsNgen)
            w.shared.loggers },
        Function.update w.threads t ⟨position, todo, answers⟩⟩
      (runFrom (Serial.step env opens) s
        (Thread.effect env linked w.shared t now ⟨.found call, todo, answers⟩)) := by
  have hid : ((stateOf w.shared.loggers call.key).upgrade call.ewtsNgen).ewtsId = call.key :=
    ewtsId_stateOf hmem
  refine h.settle hθ ?_ (Refines.out_same hθ rfl rfl ?_) rfl ?_
  · rw [view_storeState (hid.symm ▸ hmem), hid, initLoggerState_upgrade]
    rfl
  · rcases hposition with rfl | rfl <;> rfl
  · rcases hposition with rfl | rfl <;> simp [Thread.due]

/-- Without one it allocates a state. -/
theorem Refines.create (h : Refines env w s) (hθ : w.threads t = ⟨.create call, todo, answers⟩)
    (hnew : call.key ∉ ids w.shared.loggers) :
    Refines env ⟨{ w.shared with loggers := .alloc call.key call.ewtsNgen :: w.shared.loggers },
        Function.update w.threads t ⟨.initialise call, todo, answers⟩⟩
      (runFrom (Serial.step env opens) s
        (Thread.effect env linked w.shared t now ⟨.create call, todo, answers⟩)) := by
  refine h.settle hθ (view_alloc (take_loggerKey _) hnew _) (Refines.out_same hθ rfl rfl rfl) rfl
    ?_
  simp [Thread.due]

/-- The serial run has already read the environment. -/
theorem Refines.initialise (h : Refines env w s)
    (hθ : w.threads t = ⟨.initialise call, todo, answers⟩)
    (hmem : call.key ∈ ids w.shared.loggers) (rest : List Text) :
    Refines env
      ⟨{ w.shared with
          loggers := storeState (C.view env w.shared.loggers call.key) w.shared.loggers },
        Function.update w.threads t ⟨.announce call rest, todo, answers⟩⟩ s := by
  have hid : (C.view env w.shared.loggers call.key).ewtsId = call.key := ewtsId_view ..
  have hagain : initLoggerState env (C.view env w.shared.loggers call.key) =
      C.view env w.shared.loggers call.key :=
    initLoggerState_of_initialized initialized_initLoggerState
  refine h.silent hθ ?_ (Refines.out_same hθ rfl rfl rfl) rfl rfl
  rw [view_storeState (hid.symm ▸ hmem), hid, hagain, Function.update_eq_self]

/-- The serial run has no notices. -/
theorem Refines.notice (h : Refines env w s) {rest : List Text} (notice : Text)
    (hθ : w.threads t = ⟨.announce call (notice :: rest), todo, answers⟩) :
    Refines env ⟨w.shared.print .stdout (.notice notice),
      Function.update w.threads t ⟨.announce call rest, todo, answers⟩⟩ s := by
  refine h.silent hθ rfl (fun sink => ?_) rfl rfl
  have hsame : w.unwrittenAfter t (w.shared.print .stdout (.notice notice))
      ⟨.announce call rest, todo, answers⟩ = w.unwritten := World.unwritten_same hθ rfl rfl
  rw [linesOf_print_notice, hsame]

end Lookup

/-! ### Answers and messages -/

section Messages

variable {call : Call} {todo : List Call} {answers : List Answer} {level : Int} {msg : Text}

/-- A call that returns without touching a state or a file takes effect there. -/
theorem Refines.returned (h : Refines env w s) (hθ : w.threads t = θ) (hop : op.thread = t)
    {bridged : List (Text × Int × Text)} {answer : Answer}
    (hstep : C.view env (s.step env opens op).loggers = C.view env s.loggers ∧
      (s.step env opens op).out = s.out ∧ (s.step env opens op).bridged = bridged)
    (hlines : θ.unwritten = fun _ => []) (hdue : θ.due = [])
    (hanswer : answer =
      op.call.answer ((C.view env w.shared.loggers op.call.key).upgrade op.call.ewtsNgen)) :
    Refines env ⟨{ w.shared with bridged := bridged },
        Function.update w.threads t ⟨.outside, θ.todo, θ.answers ++ [answer]⟩⟩
      (s.step env opens op) := by
  obtain ⟨hview, hout, hbridged⟩ := hstep
  have hsame : Thread.unwritten ⟨.outside, θ.todo, θ.answers ++ [answer]⟩ = θ.unwritten :=
    hlines.symm
  refine h.effective hθ hop (h.view.trans hview.symm) (fun sink => ?_) hbridged.symm ?_
  · rw [hout, ← h.out]
    exact Refines.out_same hθ rfl rfl hsame sink
  · rw [hdue, hanswer, List.append_nil]
    exact List.append_nil _

/-- A query takes effect when it returns; `EwtsInit` has done so before. -/
theorem Refines.query (h : Refines env w s) (hθ : w.threads t = ⟨.act call, todo, answers⟩)
    (hknown : Known w.shared.loggers call.key) (hmessage : call.message = none) :
    Refines env ⟨w.shared, Function.update w.threads t
        ⟨.outside, todo, answers ++ [call.answer (stateOf w.shared.loggers call.key)]⟩⟩
      (runFrom (Serial.step env opens) s
        (Thread.effect env linked w.shared t now ⟨.act call, todo, answers⟩)) := by
  by_cases hcall : call.isInit = true
  · have heffect : Thread.effect env linked w.shared t now ⟨.act call, todo, answers⟩ = [] := by
      simp only [Thread.effect, hmessage, if_pos hcall]
    rw [heffect]
    refine h.silent hθ rfl (Refines.out_same hθ rfl rfl rfl) rfl ?_
    simp [Thread.due, hcall, (Call.of_isInit hcall).2]
  · rw [Bool.not_eq_true] at hcall
    have hngen := Call.ewtsNgen_of_not_isInit hcall
    have heffect : Thread.effect env linked w.shared t now ⟨.act call, todo, answers⟩ =
        [⟨t, call, false, now, now⟩] := by
      simp only [Thread.effect, hmessage, hcall, Bool.false_eq_true, if_false]
    have hstep : C.view env (s.step env opens ⟨t, call, false, now, now⟩).loggers = _ ∧ _ ∧ _ :=
      Serial.step_of_none hmessage
    obtain ⟨hview, hout, hbridged⟩ := hstep
    rw [hngen, LoggerState.upgrade_false, Function.update_eq_self] at hview
    rw [heffect]
    refine h.returned hθ rfl ⟨hview, hout, hbridged.trans h.bridged.symm⟩ rfl ?_ ?_
    · simp [Thread.due, hcall]
    · rw [hngen, LoggerState.upgrade_false, view_of_known env hknown]

/-- A message that the filter drops takes effect at the filter. -/
theorem Refines.drop (h : Refines env w s) (hθ : w.threads t = ⟨.act call, todo, answers⟩)
    (hknown : Known w.shared.loggers call.key) (hmessage : call.message = some (level, msg))
    (hdrops : (stateOf w.shared.loggers call.key).Drops level) :
    Refines env ⟨w.shared, Function.update w.threads t ⟨.outside, todo, answers ++ [.done]⟩⟩
      (runFrom (Serial.step env opens) s
        (Thread.effect env linked w.shared t now ⟨.act call, todo, answers⟩)) := by
  obtain ⟨hcall, _, hanswer⟩ := Call.of_message hmessage
  have heffect : Thread.effect env linked w.shared t now ⟨.act call, todo, answers⟩ =
      [⟨t, call, false, now, now⟩] := by
    simp only [Thread.effect, hmessage, if_pos hdrops]
  have hstep : C.view env (s.step env opens ⟨t, call, false, now, now⟩).loggers = _ ∧ _ ∧ _ :=
    Serial.step_of_drops hmessage (by rwa [← h.view, view_of_known env hknown])
  rw [heffect]
  refine h.returned hθ rfl ⟨hstep.1, hstep.2.1, hstep.2.2.trans h.bridged.symm⟩ rfl ?_
    (hanswer _).symm
  simp [Thread.due, hcall]

/-- A message on the route to the bridge takes effect there. -/
theorem Refines.bridge (h : Refines env w s)
    (hθ : w.threads t = ⟨.route call level msg, todo, answers⟩)
    (hpassed : Passed w.shared.loggers call level msg)
    (hbridges : (stateOf w.shared.loggers call.key).Bridges env linked) :
    Refines env
      ⟨{ w.shared with
          bridged := w.shared.bridged ++
            [((stateOf w.shared.loggers call.key).ewtsId, level, msg)] },
        Function.update w.threads t ⟨.outside, todo, answers ++ [.done]⟩⟩
      (runFrom (Serial.step env opens) s
        (Thread.effect env linked w.shared t now ⟨.route call level msg, todo, answers⟩)) := by
  obtain ⟨hknown, hmessage, hpasses⟩ := hpassed
  have heffect : Thread.effect env linked w.shared t now ⟨.route call level msg, todo, answers⟩ =
      [⟨t, call, true, now, now⟩] := if_pos hbridges
  have hstep : C.view env (s.step env opens ⟨t, call, true, now, now⟩).loggers = _ ∧ _ ∧ _ :=
    Serial.step_of_route hmessage (by rwa [← h.view, view_of_known env hknown]) rfl
  rw [heffect]
  refine h.returned hθ rfl ⟨hstep.1, hstep.2.1, ?_⟩ rfl rfl
    ((Call.of_message hmessage).2.2 _).symm
  rw [hstep.2.2, h.bridged, ewtsId_stateOf hknown.1]

/-- A message that stays in the process takes effect when its file is open. -/
theorem Refines.opened (h : Refines env w s) {read : Timestamp}
    (hθ : w.threads t = ⟨.opening call level msg read, todo, answers⟩)
    (hpassed : Passed w.shared.loggers call level msg) (howner : w.shared.writeMutex = some t)
    {st : LoggerState}
    (hst : st = openStandaloneFile env opens now (stateOf w.shared.loggers call.key)) :
    Refines env ⟨{ w.shared with loggers := storeState st w.shared.loggers },
        Function.update w.threads t ⟨.write (st.file.getD .stdout)
          (standaloneLines read st.ewtsIdPadded level msg), todo, answers⟩⟩
      (s.step env opens ⟨t, call, false, read, now⟩) := by
  obtain ⟨hknown, hmessage, hpasses⟩ := hpassed
  have hview := view_of_known env hknown
  have hnothing : w.unwritten = fun _ => [] := by
    ext1 sink
    rw [World.unwritten, howner]
    simp only [hθ]
    rfl
  have hstep : C.view env (s.step env opens ⟨t, call, false, read, now⟩).loggers = _ ∧ _ ∧ _ :=
    Serial.step_of_alone hmessage (by rwa [← h.view, hview]) rfl rfl
  simp only [← h.view, hview, ← hst] at hstep
  obtain ⟨hview', hout', hbridged'⟩ := hstep
  obtain ⟨hid', hinit', -⟩ :=
    openStandaloneFile_keeps env opens now (stateOf w.shared.loggers call.key)
  rw [← hst] at hid' hinit'
  have hid : st.ewtsId = call.key := hid'.trans (ewtsId_stateOf hknown.1)
  refine h.effective hθ rfl ?_ (fun sink => Refines.out_owner howner ?_)
    (h.bridged.trans hbridged'.symm) ?_
  · rw [view_storeState (hid.symm ▸ hknown.1), hid, hview',
      initLoggerState_of_initialized (hinit'.trans hknown.2)]
  · have hout := h.out sink
    rw [hnothing, List.append_nil] at hout
    rw [hout, hout']
    by_cases hs : sink = st.file.getD .stdout
    · simp [Thread.unwritten, hs]
    · simp [Thread.unwritten, hs]
  · simp [Thread.due, (Call.of_message hmessage).2.2]

end Messages

/-! ### Files -/

section Files

variable {todo : List Call} {answers : List Answer} {file : Sink}

/-- The serial run has already printed the line. -/
theorem Refines.print (h : Refines env w s) {rest : List Text} (line : Text)
    (hθ : w.threads t = ⟨.write file (line :: rest), todo, answers⟩)
    (howner : w.shared.writeMutex = some t) :
    Refines env ⟨w.shared.print file (.line line),
      Function.update w.threads t ⟨.write file rest, todo, answers⟩⟩ s := by
  have howner' : (w.shared.print file (.line line)).writeMutex = some t := howner
  refine h.silent hθ rfl (fun sink => Refines.out_owner howner' ?_) rfl rfl
  rw [linesOf_print_line, World.unwritten, howner]
  simp only [hθ, Thread.unwritten, List.append_assoc]
  split <;> rfl

/-- A message returns after its last line. -/
theorem Refines.release (h : Refines env w s)
    (hθ : w.threads t = ⟨.write file [], todo, answers⟩) (howner : w.shared.writeMutex = some t) :
    Refines env ⟨{ w.shared with writeMutex := none },
      Function.update w.threads t ⟨.outside, todo, answers ++ [.done]⟩⟩ s := by
  refine h.silent hθ rfl (fun sink => ?_) rfl ?_
  · rw [World.unwritten, howner]
    simp only [hθ, Thread.unwritten, ite_self]
    rfl
  · simp [Thread.due]

end Files

/-- Every step does what the serial run of its effects does. -/
theorem Thread.Move.refines {r : Shared τ × Thread}
    (hmove : Thread.Move env linked opens w.shared t now θ r)
    (hθ : w.threads t = θ) (hinv : w.Invariant) (h : Refines env w s) :
    Refines env ⟨r.1, Function.update w.threads t r.2⟩
      (runFrom (Serial.step env opens) s (θ.effect env linked w.shared t now)) := by
  have hsound : θ.position.Sound w.shared.loggers := hθ ▸ hinv.sound t
  have howner (hfiles : θ.InFiles) : w.shared.writeMutex = some t :=
    (hinv.files t).mp (hθ.symm ▸ hfiles)
  cases hmove with
  | stay hblocked =>
    rw [Thread.effect_of_blocked hblocked]
    exact h.silent hθ rfl (Refines.out_same hθ rfl rfl rfl) rfl rfl
  | enter | exhaust | hit | miss | announced | leave =>
    exact h.silent hθ rfl (Refines.out_same hθ rfl rfl rfl) rfl rfl
  | upgrade =>
    apply h.upgrade hθ hsound
    split
    · exact Or.inl rfl
    · exact Or.inr rfl
  | create => exact h.create hθ hsound
  | initialise => exact h.initialise hθ hsound _
  | notice => exact h.notice _ hθ
  | query hmessage => exact h.query hθ hsound hmessage
  | drop hmessage hdrops => exact h.drop hθ hsound hmessage hdrops
  | @pass call level msg todo answers hmessage hpasses =>
    have heffect : Thread.effect env linked w.shared t now ⟨.act call, todo, answers⟩ = [] := by
      simp only [Thread.effect, hmessage, if_neg hpasses]
    rw [heffect]
    refine h.silent hθ rfl (Refines.out_same hθ rfl rfl rfl) rfl ?_
    simp [Thread.due, (Call.of_message hmessage).1]
  | bridge hbridges => exact h.bridge hθ hsound hbridges
  | @alone call level msg todo answers halone =>
    have heffect : Thread.effect env linked w.shared t now ⟨.route call level msg, todo, answers⟩ =
        [] := if_neg halone
    rw [heffect]
    exact h.silent hθ rfl (Refines.out_same hθ rfl rfl rfl) rfl rfl
  | acquire hfree =>
    refine h.silent hθ rfl (fun sink => Refines.out_owner rfl ?_) rfl rfl
    rw [World.unwritten, hfree]
    rfl
  | opened hst => exact h.opened hθ hsound (howner trivial) hst
  | print => exact h.print _ hθ (howner trivial)
  | release => exact h.release hθ (howner trivial)

omit [DecidableEq τ] in
/-- The process before the first call is the serial run of no call. -/
theorem Refines.start (programs : τ → List Call) :
    Refines env (World.start programs) Serial.start where
  view := rfl
  out _ := rfl
  bridged := rfl
  answers _ := rfl

/-! ## The order of the calls -/

/-- The call of an operation of this thread. -/
def Operation.callOf (t : τ) (op : Operation τ) : Option Call :=
  if op.thread = t then some op.call else none

omit [DecidableEq τ] in
theorem Thread.effect_thread {s : Shared τ} :
    ∀ op ∈ θ.effect env linked s t now, op.thread = t := by
  intro op hop
  unfold Thread.effect at hop
  repeat' split at hop
  all_goals first
    | (cases hop; done)
    | (rw [List.mem_singleton] at hop; rw [hop])

omit [DecidableEq τ] in
/-- The calls of a thread take effect in the order of its program. -/
theorem Thread.Move.calls {s : Shared τ} (hmove : Thread.Move env linked opens s t now θ r) :
    θ.owed ++ θ.todo =
      (θ.effect env linked s t now).map Operation.call ++ (r.2.owed ++ r.2.todo) := by
  cases hmove with
  | stay h => rw [Thread.effect_of_blocked h]; rfl
  | enter | exhaust | hit | miss | initialise | notice | announced | leave => rfl
  | acquire | opened | print | release => rfl
  | @upgrade call =>
    by_cases hcall : call.isInit = true
    · split <;> simp [Thread.owed, Thread.effect, hcall]
    · split <;> simp [Thread.owed, Thread.effect, hcall]
  | @create call =>
    by_cases hcall : call.isInit = true
    · simp [Thread.owed, Thread.effect, hcall]
    · simp [Thread.owed, Thread.effect, hcall]
  | @query call _ _ hmessage =>
    by_cases hcall : call.isInit = true
    · simp [Thread.owed, Thread.effect, hmessage, hcall]
    · simp [Thread.owed, Thread.effect, hmessage, hcall]
  | drop hmessage hdrops =>
    simp [Thread.owed, Thread.effect, hmessage, hdrops, (Call.of_message hmessage).1]
  | pass hmessage hpasses =>
    simp [Thread.owed, Thread.effect, hmessage, hpasses, (Call.of_message hmessage).1]
  | bridge hbridges => simp [Thread.owed, Thread.effect, hbridges]
  | alone halone => simp [Thread.owed, Thread.effect, halone]

/-- Steps of other threads do not use up the program of a thread. -/
theorem World.calls_step (w : World τ) (turn : τ × Timestamp) (t : τ) :
    (w.threads t).owed ++ (w.threads t).todo =
      (w.effect env linked turn).filterMap (Operation.callOf t) ++
        (((w.step env linked opens turn).threads t).owed ++
          ((w.step env linked opens turn).threads t).todo) := by
  obtain ⟨u, now⟩ := turn
  have hthread : ∀ op ∈ w.effect env linked (u, now), op.thread = u := Thread.effect_thread
  by_cases hu : t = u
  · have hcalls := (Thread.step_move env linked opens w.shared u now (w.threads u)).calls
    have hown : (w.effect env linked (u, now)).filterMap (Operation.callOf u) =
        (w.effect env linked (u, now)).map Operation.call := by
      rw [← List.filterMap_eq_map]
      exact List.filterMap_congr fun op hop => if_pos (hthread op hop)
    rw [hu, hown]
    simp only [World.step, Function.update_self]
    exact hcalls
  · have hnone : (w.effect env linked (u, now)).filterMap (Operation.callOf t) = [] := by
      rw [List.filterMap_eq_nil_iff]
      exact fun op hop => if_neg fun h => hu (h.symm.trans (hthread op hop))
    rw [hnone, List.nil_append]
    simp only [World.step, Function.update_of_ne hu]

/-- The process after a schedule of turns. -/
abbrev World.run (env : Environ) (linked : Bool) (opens : Text → Bool) (programs : τ → List Call)
    (schedule : List (τ × Timestamp)) : World τ :=
  runFrom (World.step env linked opens) (World.start programs) schedule

/-- The calls in the order in which they take effect. -/
abbrev World.order (env : Environ) (linked : Bool) (opens : Text → Bool)
    (programs : τ → List Call) (schedule : List (τ × Timestamp)) : List (Operation τ) :=
  effects (World.step env linked opens) (World.effect env linked) (World.start programs) schedule

/-- One step of a run and of its serial run. -/
theorem Refines.step (hinv : w.Invariant) (h : Refines env w s) (turn : τ × Timestamp) :
    Refines env (w.step env linked opens turn)
      (runFrom (Serial.step env opens) s (w.effect env linked turn)) :=
  (Thread.step_move ..).refines rfl hinv h

/-- Every run refines the serial run of the calls that take effect in it. -/
theorem World.refines_run (env : Environ) (linked : Bool) (opens : Text → Bool)
    (programs : τ → List Call) (schedule : List (τ × Timestamp)) :
    (World.run env linked opens programs schedule).Invariant ∧
      Refines env (World.run env linked opens programs schedule)
        (runFrom (Serial.step env opens) Serial.start
          (World.order env linked opens programs schedule)) := by
  refine runFrom_refines (R := fun w s => w.Invariant ∧ Refines env w s) ?_
    ⟨.start programs, .start programs⟩
  rintro w s turn - ⟨hinv, h⟩
  exact ⟨hinv.step turn, h.step hinv turn⟩

/-- A serial order of calls that explains what a process has done. -/
structure Explains (env : Environ) (opens : Text → Bool) (programs : τ → List Call) (w : World τ)
    (order : List (Operation τ)) : Prop where
  /-- The order keeps the program of each thread. -/
  calls : ∀ t, programs t =
    order.filterMap (Operation.callOf t) ++ ((w.threads t).owed ++ (w.threads t).todo)
  out : ∀ sink, linesOf (w.shared.out sink) ++ w.unwritten sink =
    (runFrom (Serial.step env opens) Serial.start order).out sink
  bridged : w.shared.bridged = (runFrom (Serial.step env opens) Serial.start order).bridged
  answers : ∀ t, (w.threads t).answers ++ (w.threads t).due =
    (runFrom (Serial.step env opens) Serial.start order).answers t

/-- The calls in the order in which they take effect explain a run. -/
theorem World.explains_run (env : Environ) (linked : Bool) (opens : Text → Bool)
    (programs : τ → List Call) (schedule : List (τ × Timestamp)) :
    Explains env opens programs (World.run env linked opens programs schedule)
      (World.order env linked opens programs schedule) := by
  obtain ⟨_, h⟩ := World.refines_run env linked opens programs schedule
  refine ⟨fun t => ?_, h.out, h.bridged, h.answers⟩
  let ahead (w : World τ) : List Call := (w.threads t).owed ++ (w.threads t).todo
  have hstep (w : World τ) (turn : τ × Timestamp) :
      ahead w = (w.effect env linked turn).filterMap (Operation.callOf t) ++
        ahead (w.step env linked opens turn) :=
    World.calls_step w turn t
  exact effects_ledger hstep (World.start programs) schedule

/-- Whatever the interleaving, the lines of each stream, the bridged messages and the answers
are those of a serial run. Its order keeps the program of each thread, and what has taken effect
at a point of the run comes before what takes effect later. -/
theorem World.exists_serial_run (env : Environ) (linked : Bool) (opens : Text → Bool)
    (programs : τ → List Call) (schedule : List (τ × Timestamp)) :
    ∃ order, Explains env opens programs (World.run env linked opens programs schedule) order ∧
      ∀ before after, schedule = before ++ after → ∃ early late, order = early ++ late ∧
        Explains env opens programs (World.run env linked opens programs before) early := by
  refine ⟨_, World.explains_run env linked opens programs schedule, ?_⟩
  rintro before after rfl
  exact ⟨_, _, effects_append .., World.explains_run env linked opens programs before⟩

/-! ## The route of a message -/

/-- The call is on its way to a file of its state. -/
def Thread.Departs (θ : Thread) (key : Text) : Prop :=
  match θ.position with
  | .waiting call _ _ _ | .opening call _ _ _ => call.key = key
  | _ => False

/-- An `EwtsInit` turns to the bridge a state that has a message on its way to a file. -/
def World.Overtakes (env : Environ) (linked : Bool) (w : World τ) (turn : τ × Timestamp) : Prop :=
  ∃ call u, (w.threads turn.1).position = .found call ∧ call.ewtsNgen = true ∧
    (isNgenActive env && linked) = true ∧ (w.threads u).Departs call.key

instance (θ : Thread) (key : Text) : Decidable (θ.Departs key) :=
  match θ with
  | ⟨.waiting call _ _ _, _, _⟩ | ⟨.opening call _ _ _, _, _⟩ =>
    inferInstanceAs (Decidable (call.key = key))
  | ⟨.outside, _, _⟩ | ⟨.search .., _, _⟩ | ⟨.found _, _, _⟩ | ⟨.create _, _, _⟩
  | ⟨.initialise _, _, _⟩ | ⟨.announce .., _, _⟩ | ⟨.unlock _, _, _⟩ | ⟨.act _, _, _⟩
  | ⟨.route .., _, _⟩ | ⟨.write .., _, _⟩ => inferInstanceAs (Decidable False)

/-- The key of the state that the next step of a thread turns to the bridge, if any. -/
def Thread.turns (θ : Thread) : Option Text :=
  match θ.position with
  | .found call => if call.ewtsNgen then some call.key else none
  | _ => none

omit [DecidableEq τ] in
theorem World.overtakes_iff (env : Environ) (linked : Bool) (w : World τ) (turn : τ × Timestamp) :
    w.Overtakes env linked turn ↔ (isNgenActive env && linked) = true ∧
      ∃ key ∈ (w.threads turn.1).turns, ∃ u, (w.threads u).Departs key := by
  unfold World.Overtakes Thread.turns
  constructor
  · rintro ⟨call, u, hposition, hngen, hactive, hdeparts⟩
    rw [hposition]
    exact ⟨hactive, call.key, by simp only [hngen, ite_true, Option.mem_def], u, hdeparts⟩
  · rintro ⟨hactive, key, hkey, u, hdeparts⟩
    split at hkey
    · rename_i call hposition
      obtain ⟨hngen, hkey⟩ := Option.ite_none_right_eq_some.mp hkey
      cases hkey
      exact ⟨call, u, hposition, hngen, hactive, hdeparts⟩
    · cases hkey

instance (env : Environ) (linked : Bool) [Fintype τ] (w : World τ) (turn : τ × Timestamp) :
    Decidable (w.Overtakes env linked turn) :=
  decidable_of_iff _ (w.overtakes_iff env linked turn).symm

/-- No message on its way to a file belongs to a state that is bridged. -/
def World.Alone (env : Environ) (linked : Bool) (w : World τ) : Prop :=
  ∀ u key, (w.threads u).Departs key → ¬ (stateOf w.shared.loggers key).Bridges env linked

/-- The operation takes the route of its state. -/
def Operation.Routed (env : Environ) (linked : Bool) (s : Serial τ) (op : Operation τ) : Prop :=
  ∀ level msg, op.call.message = some (level, msg) →
    ¬ (C.view env s.loggers op.call.key).Drops level →
    (op.route = true ↔ (C.view env s.loggers op.call.key).Bridges env linked)

omit [DecidableEq τ] in
/-- Only `EwtsInit` changes the route of a state that is there. -/
theorem Thread.Move.useNgen {s : Shared τ} (hmove : Thread.Move env linked opens s t now θ r)
    (hsound : θ.position.Sound s.loggers) {key : Text} (hkey : Known s.loggers key) :
    (stateOf r.1.loggers key).useNgen = (stateOf s.loggers key).useNgen ∨
      ∃ call, θ.position = .found call ∧ call.key = key ∧ call.ewtsNgen = true := by
  have hstore {st : LoggerState} {k : Text} (hid : st.ewtsId = k) (hmem : k ∈ ids s.loggers)
      (huse : st.useNgen = (stateOf s.loggers k).useNgen) :
      (stateOf (storeState st s.loggers) key).useNgen = (stateOf s.loggers key).useNgen := by
    rw [stateOf_storeState (hid.symm ▸ hmem), hid]
    by_cases hk : key = k
    · rw [hk, Function.update_self, huse]
    · rw [Function.update_of_ne hk]
  cases hmove with
  | stay | enter | exhaust | hit | miss | notice | announced | leave => exact Or.inl rfl
  | query | drop | pass | bridge | alone | acquire | print | release => exact Or.inl rfl
  | @upgrade call =>
    have hid : ((stateOf s.loggers call.key).upgrade call.ewtsNgen).ewtsId = call.key :=
      ewtsId_stateOf hsound
    by_cases hngen : call.ewtsNgen = true
    · by_cases hk : call.key = key
      · exact Or.inr ⟨call, rfl, hk, hngen⟩
      · refine Or.inl ?_
        simp only
        rw [stateOf_storeState (hid.symm ▸ hsound), hid, Function.update_of_ne (Ne.symm hk)]
    · rw [Bool.not_eq_true] at hngen
      refine Or.inl (hstore hid hsound ?_)
      rw [hngen, LoggerState.upgrade_false]
  | @create call =>
    have hid : (LoggerState.alloc call.key call.ewtsNgen).ewtsId = call.key :=
      take_loggerKey call.ewtsId
    have hne : key ≠ call.key := by
      rintro rfl
      exact hsound hkey.1
    refine Or.inl ?_
    simp only
    rw [stateOf_cons, hid, Function.update_of_ne hne]
  | @initialise call =>
    refine Or.inl (hstore (ewtsId_view env s.loggers call) hsound ?_)
    unfold view initLoggerState
    split <;> rfl
  | @opened call level msg read _ _ st hst =>
    obtain ⟨file, hfile⟩ := openStandaloneFile_eq env opens now (stateOf s.loggers call.key)
    rw [← hst] at hfile
    refine Or.inl (hstore ?_ hsound.1.1 ?_)
    · rw [hfile]
      exact ewtsId_stateOf hsound.1.1
    · rw [hfile]

omit [DecidableEq τ] in
theorem LoggerState.bridges_iff {st : LoggerState} :
    st.Bridges env linked ↔ st.useNgen = true ∧ (isNgenActive env && linked) = true := by
  rw [LoggerState.Bridges, Bool.and_assoc, Bool.and_eq_true]

omit [DecidableEq τ] in
/-- A call on its way to a file has a state. -/
theorem Thread.Departs.known {loggers : List LoggerState} {key : Text} (h : θ.Departs key)
    (hsound : θ.position.Sound loggers) : Known loggers key := by
  unfold Thread.Departs at h
  cases hp : θ.position with
  | waiting call level msg read =>
    rw [hp] at h hsound
    obtain rfl : call.key = key := h
    exact hsound.1
  | opening call level msg read =>
    rw [hp] at h hsound
    obtain rfl : call.key = key := h
    exact hsound.1
  | _ =>
    rw [hp] at h
    exact h.elim

omit [DecidableEq τ] in
/-- A thread goes on its way to a file when its state is not bridged. -/
theorem Thread.Move.departs {s : Shared τ} (hmove : Thread.Move env linked opens s t now θ r)
    {key : Text} (h : r.2.Departs key) :
    r.1.loggers = s.loggers ∧
      (θ.Departs key ∨ ¬ (stateOf s.loggers key).Bridges env linked) := by
  cases hmove with
  | stay => exact ⟨rfl, Or.inl h⟩
  | alone halone => exact ⟨rfl, Or.inr (h ▸ halone)⟩
  | acquire => exact ⟨rfl, Or.inl h⟩
  | @upgrade call =>
    by_cases hinit : (stateOf s.loggers call.key).initialized = true
    · simp only [if_pos hinit] at h
      exact False.elim h
    · simp only [if_neg hinit] at h
      exact False.elim h
  | _ => exact False.elim h

/-- Without overtaking, what is on its way to a file stays on the right way. -/
theorem World.Alone.step (h : w.Alone env linked) (hinv : w.Invariant) {turn : τ × Timestamp}
    (hturn : ¬ w.Overtakes env linked turn) : (w.step env linked opens turn).Alone env linked := by
  obtain ⟨t, now⟩ := turn
  have hmove := Thread.step_move env linked opens w.shared t now (w.threads t)
  intro u key hu
  by_cases hut : u = t
  · simp only [World.step, hut, Function.update_self] at hu ⊢
    obtain ⟨hloggers, hdeparts | halone⟩ := hmove.departs hu
    · rw [hloggers]
      exact h t key hdeparts
    · rw [hloggers]
      exact halone
  · simp only [World.step, Function.update_of_ne hut] at hu ⊢
    have hbefore := h u key hu
    rw [LoggerState.bridges_iff, not_and] at hbefore ⊢
    rcases hmove.useNgen (hinv.sound t) (hu.known (hinv.sound u)) with hsame | hinit
    · rwa [hsame]
    · obtain ⟨call, hcall, rfl, hngen⟩ := hinit
      exact fun _ hactive => hturn ⟨call, u, hcall, hngen, hactive, hu⟩

/-- The calls that take effect take the routes of their states. -/
theorem Thread.effect_routed (hinv : w.Invariant) (h : Refines env w s)
    (halone : w.Alone env linked) (t : τ) (now : Timestamp) :
    EachStep (Serial.step env opens) (Operation.Routed env linked) s
      (w.effect env linked (t, now)) := by
  have hsound := hinv.sound t
  have quiet {call : Call} (hmessage : call.message = none) :
      Operation.Routed env linked s ⟨t, call, false, now, now⟩ := by
    intro level msg hsome
    rw [hmessage] at hsome
    cases hsome
  unfold World.effect Thread.effect
  cases hp : (w.threads t).position with
  | found call | create call =>
    simp only
    split
    · rename_i hcall
      exact ⟨quiet (Call.of_isInit hcall).1, trivial⟩
    · trivial
  | act call =>
    rw [hp] at hsound
    simp only
    split
    · rename_i hmessage
      split
      · trivial
      · exact ⟨quiet hmessage, trivial⟩
    · rename_i level msg hmessage
      split
      · rename_i hdrops
        refine ⟨fun level' msg' hsome hpasses => absurd hdrops ?_, trivial⟩
        rw [← h.view, view_of_known env hsound] at hpasses
        obtain ⟨rfl, rfl⟩ : level = level' ∧ msg = msg' := by
          simpa using hmessage.symm.trans hsome
        exact hpasses
      · trivial
  | route call level msg =>
    rw [hp] at hsound
    simp only
    split
    · rename_i hbridges
      refine ⟨fun _ _ _ _ => iff_of_true rfl ?_, trivial⟩
      rwa [← h.view, view_of_known env hsound.1]
    · trivial
  | opening call level msg read =>
    rw [hp] at hsound
    refine ⟨fun _ _ _ _ => iff_of_false Bool.false_ne_true ?_, trivial⟩
    rw [← h.view, view_of_known env hsound.1]
    refine halone t call.key ?_
    rw [Thread.Departs, hp]
  | _ => trivial

/-- When no `EwtsInit` overtakes a message, every message of the serial run takes the route of
its state, as it does without threads. -/
theorem World.routed_run (programs : τ → List Call) (schedule : List (τ × Timestamp))
    (hrun : EachStep (World.step env linked opens)
      (fun w turn => ¬ w.Overtakes env linked turn) (World.start programs) schedule) :
    Explains env opens programs (World.run env linked opens programs schedule)
        (World.order env linked opens programs schedule) ∧
      EachStep (Serial.step env opens) (Operation.Routed env linked) Serial.start
        (World.order env linked opens programs schedule) := by
  refine ⟨World.explains_run env linked opens programs schedule, ?_⟩
  refine eachStep_effects (R := fun w s => w.Invariant ∧ Refines env w s ∧ w.Alone env linked) ?_
    hrun ⟨.start programs, .start programs, fun _ _ h => h.elim⟩
  rintro w s ⟨t, now⟩ ⟨hinv, h, halone⟩ hturn
  exact ⟨Thread.effect_routed hinv h halone t now, hinv.step (t, now), h.step hinv (t, now),
    halone.step hinv hturn⟩

end Refinement

/-! ## A run inside ngen -/

/-- An environment in which the bridge is active. -/
private def ngenEnv : Environ :=
  Environ.setenv (fun _ => none) (text "NGEN_RESULTS_DIR") (text "/run")

/-- One thread turns to the bridge a state that the other has logged with. -/
private def turnPrograms : Bool → List Call
  | false => [.ewtsLogModule (some (text "topmodel")) 20 (some (text "rain")),
      .ewtsLogModule (some (text "topmodel")) 30 (some (text "dry"))]
  | true => [.ewtsInit (some (text "topmodel")) true,
      .ewtsLogModule (some (text "topmodel")) 20 (some (text "step"))]

/-- The first message and `EwtsInit` return, then the threads take turns. -/
private def turnSchedule : List (Bool × Timestamp) :=
  (List.replicate 16 false ++ List.replicate 5 true ++
    (List.range 20).map fun n => decide (n % 2 = 0)).map (·, default)

theorem World.routed_run_bridged :
    let w := World.run ngenEnv true (fun _ => true) turnPrograms turnSchedule
    let order := World.order ngenEnv true (fun _ => true) turnPrograms turnSchedule
    w.shared.bridged =
        [(text "TOPMODEL", 20, text "step"), (text "TOPMODEL", 30, text "dry")] ∧
      Explains ngenEnv (fun _ => true) turnPrograms w order ∧
      EachStep (Serial.step ngenEnv fun _ => true) (Operation.Routed ngenEnv true) Serial.start
        order := by
  intro w order
  have hbridged : w.shared.bridged =
      [(text "TOPMODEL", 20, text "step"), (text "TOPMODEL", 30, text "dry")] := by
    decide +kernel
  exact ⟨hbridged, World.routed_run turnPrograms turnSchedule (by decide +kernel)⟩

end Ewts.C
