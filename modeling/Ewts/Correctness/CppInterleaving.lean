import Ewts.Correctness.CppThreads

/-!
# Interleavings of the C++ runtime

A call takes effect in at most two steps: its lookup when the registry has the logger, the rest
when a method returns, a message is dropped or bridged, or its file is open. What a thread has
yet to insert into a stream has already been written in the serial run.
-/

namespace Ewts.Cpp

variable {τ : Type} {host : Host}

/-! ## One request of a serial run -/

section Serial

variable {env : Environ} {loggers : Loggers} {lg lg' : Logger} {key : Text}

/-- A registry as its callers see it: each logger as it is once it has read the environment. -/
def view (env : Environ) (loggers : Loggers) : Loggers :=
  Option.map (Logger.initOnce env) ∘ loggers

theorem view_set : view env (Function.update loggers key (some lg)) =
    Function.update (view env loggers) key (some (lg.initOnce env)) :=
  Function.comp_update ..

theorem view_of_some (h : loggers key = some lg) :
    view env loggers key = some (lg.initOnce env) := by
  rw [view, Function.comp_apply, h, Option.map_some]

theorem view_of_none (h : loggers key = none) : view env loggers key = none := by
  rw [view, Function.comp_apply, h, Option.map_none]

/-- A ready logger is seen as it is. -/
theorem view_of_ready (h : loggers.Ready key) : view env loggers key = some (loggers.at key) := by
  obtain ⟨lg, hlg, hinit⟩ := h
  rw [view_of_some hlg, Loggers.at_of_some hlg, Logger.initOnce_of_initialized hinit]

theorem Loggers.present_iff : loggers.Present key ↔ view env loggers key ≠ none := by
  constructor
  · rintro ⟨lg, hlg⟩
    rw [view_of_some hlg]
    exact Option.some_ne_none _
  · intro h
    cases hlg : loggers key with
    | none => exact absurd (view_of_none hlg) h
    | some lg => exact ⟨lg, hlg⟩

/-- What is seen after a lookup depends on what was seen before. -/
theorem view_get (ewtsNgen : Bool) : view env (loggers.get key ewtsNgen) =
    if view env loggers key = none then
      Function.update (view env loggers) key (some ((Logger.new key ewtsNgen).initOnce env))
    else view env loggers := by
  cases h : loggers key with
  | none => rw [if_pos (view_of_none h), Loggers.get_of_none h, view_set]
  | some lg =>
    have hsome : view env loggers key ≠ none := Loggers.present_iff.mp ⟨lg, h⟩
    rw [if_neg hsome, Loggers.get_of_some h]

/-- `Log` begins with the first use. -/
theorem Logger.logAt_initOnce (host : Host) (opened : Timestamp) (lg : Logger) (level : Int)
    (message : Text) : (lg.initOnce host.env).logAt host opened level message =
      lg.logAt host opened level message := by
  rw [logAt, logAt, initOnce_initOnce]

/-- So do the other methods; a null format only leaves the first use to later calls. -/
theorem Method.run_initOnce (host : Host) (opened : Timestamp) (lg : Logger) (method : Method) :
    let r := method.run host opened lg
    let r' := method.run host opened (lg.initOnce host.env)
    r'.1 = r.1 ∧ r'.2.1 = r.2.1 ∧ r'.2.2.initOnce host.env = r.2.2.initOnce host.env := by
  cases method with
  | log level message =>
    cases message with
    | none => exact ⟨rfl, rfl, Logger.initOnce_initOnce ..⟩
    | some message =>
      simp only [run, Logger.logAt_initOnce]
      exact ⟨trivial, trivial, trivial⟩
  | isLoggingEnabled | getLogLevel =>
    simp only [run, Logger.initOnce_initOnce]
    exact ⟨trivial, trivial, trivial⟩

variable [DecidableEq τ] {s : Serial τ} {t : τ} {read opened : Timestamp} {method : Method}
  {output : Option Output} {answer : Answer}

/-- A method writes its logger back, is handed on and returns. -/
theorem Serial.step_method (hlg : view host.env s.loggers key = some lg)
    (hrun : method.run { host with now := read } opened lg = (output, answer, lg')) :
    let s' := s.step host ⟨t, .method key method, read, opened⟩
    view host.env s'.loggers =
        Function.update (view host.env s.loggers) key (some (lg'.initOnce host.env)) ∧
      s'.out = (s.deliver key output).out ∧ s'.bridged = (s.deliver key output).bridged ∧
      s'.answers = Function.update s.answers t (s.answers t ++ [answer]) := by
  obtain ⟨lg₀, hlg₀, rfl⟩ := Option.map_eq_some_iff.mp hlg
  obtain ⟨houtput, hanswer, hafter⟩ :=
    Method.run_initOnce { host with now := read } opened lg₀ method
  rw [hrun] at houtput hanswer hafter
  simp only at houtput hanswer hafter
  simp only [step, Loggers.at_of_some hlg₀, ← houtput, ← hanswer]
  refine ⟨?_, ?_⟩
  · have hloggers : ∀ (s : Serial τ) (o : Option Output),
        ((s.deliver key o).answer t answer).loggers = s.loggers := by
      intro s o
      rcases o with _ | _ | _ | _ <;> rfl
    rw [hloggers, view_set, hafter]
  · rcases output with _ | _ | _ | _ <;> exact ⟨rfl, rfl, rfl⟩

omit [DecidableEq τ] in
/-- A line goes to one stream of one logger. -/
theorem Serial.deliver_standalone (s : Serial τ) (key : Text) (file : Option Text) (line : Text)
    (k : Text) (sink : Option Text) : (s.deliver key (some (.standalone file line))).out k sink =
      s.out k sink ++ if key = k ∧ sink = file then line else [] := by
  simp only [deliver]
  by_cases hk : k = key
  · rw [hk, Function.update_self]
    by_cases hs : sink = file
    · rw [hs, Function.update_self, if_pos ⟨rfl, rfl⟩]
    · rw [Function.update_of_ne hs, if_neg fun h => hs h.2, List.append_nil]
  · rw [Function.update_of_ne hk, if_neg fun h => hk h.1.symm, List.append_nil]

end Serial

/-! ## What methods do with a ready logger -/

section Methods

variable {lg lg' : Logger} {opened : Timestamp} {level : Int} {message : Text} {method : Method}
  {answer : Answer}

theorem Method.run_ask (hinit : lg.initialized = true) (h : method.ask lg = some answer) :
    method.run host opened lg = (none, answer, lg) := by
  have hagain : lg.initOnce host.env = lg := Logger.initOnce_of_initialized hinit
  cases method with
  | log level message =>
    cases message with
    | none =>
      cases h
      rfl
    | some message => cases h
  | isLoggingEnabled | getLogLevel =>
    cases h
    simp only [run, hagain]

variable (hinit : lg.initialized = true)

include hinit

theorem Method.run_drops (h : lg.Drops level) :
    (Method.log level (some message)).run host opened lg = (none, .done, lg) := by
  have hlog : lg.logAt host opened level message = (none, lg) := by
    rw [Logger.logAt, Logger.initOnce_of_initialized hinit]
    exact if_pos h
  simp only [run, hlog]
  rfl

theorem Method.run_bridges (h : ¬ lg.Drops level) (hbridges : lg.Bridges host) :
    (Method.log level (some message)).run host opened lg =
      (some (.bridge (cStr lg.ewtsId) level (cStr message)), .done, lg) := by
  have hlog : lg.logAt host opened level message =
      (some (.bridge (cStr lg.ewtsId) level (cStr message)), lg) := by
    rw [Logger.logAt, Logger.initOnce_of_initialized hinit]
    exact (if_neg h).trans (if_pos hbridges)
  simp only [run, hlog]
  rfl

theorem Method.run_throws (h : ¬ lg.Drops level) (halone : ¬ lg.Bridges host)
    (hopen : lg.openStandaloneFile { host with now := opened } = none) :
    (Method.log level (some message)).run host opened lg =
      (some .filesystemError, .filesystemError, lg) := by
  have hlog : lg.logAt host opened level message = (some .filesystemError, lg) := by
    rw [Logger.logAt, Logger.initOnce_of_initialized hinit]
    refine (if_neg h).trans ((if_neg halone).trans ?_)
    simp only [hopen]
  simp only [run, hlog]
  rfl

theorem Method.run_alone (h : ¬ lg.Drops level) (halone : ¬ lg.Bridges host)
    (hopen : lg.openStandaloneFile { host with now := opened } = some lg') :
    (Method.log level (some message)).run host opened lg =
      (some (.standalone lg'.out (linePieces host.now lg'.ewtsIdPadded level message).flatten),
        .done, lg') := by
  have hlog : lg.logAt host opened level message = (some (.standalone lg'.out
      (linePieces host.now lg'.ewtsIdPadded level message).flatten), lg') := by
    rw [Logger.logAt, Logger.initOnce_of_initialized hinit]
    refine (if_neg h).trans ((if_neg halone).trans ?_)
    simp only [hopen]
  simp only [run, hlog]
  rfl

end Methods

/-! ## When requests take effect -/

/-- What a logger has inserted into a stream by `Log`. -/
def piecesOf (key : Text) (printed : List Printed) : Text :=
  printed.flatMap fun
    | .piece own text => if own = key then text else []
    | .notice _ _ => []

/-- The requests that take effect in the next step of a thread. -/
def Thread.effect (host : Host) (s : Shared τ) (t : τ) (now : Timestamp) (θ : Thread) :
    List (Event τ) :=
  match θ.position with
  | .find key ewtsNgen _ =>
    match s.loggers key with
    | some _ => [⟨t, .getLogger key ewtsNgen, now, now⟩]
    | none => []
  | .create key ewtsNgen _ => [⟨t, .getLogger key ewtsNgen, now, now⟩]
  | .unlock key none => [⟨t, .select key, now, now⟩]
  | .use key (.log level none) => [⟨t, .method key (.log level none), now, now⟩]
  | .act key (.log level (some message)) =>
    if (s.loggers.at key).Drops level then [⟨t, .method key (.log level (some message)), now, now⟩]
    else []
  | .act key method => [⟨t, .method key method, now, now⟩]
  | .route key level message =>
    if (s.loggers.at key).Bridges host then
      [⟨t, .method key (.log level (some message)), now, now⟩]
    else []
  | .opening key level message read => [⟨t, .method key (.log level (some message)), read, now⟩]
  | _ => []

/-- The requests that take effect in a step of the process. -/
def World.effect (host : Host) (w : World τ) (turn : τ × Timestamp) : List (Event τ) :=
  (w.threads turn.1).effect host w.shared turn.1 turn.2

/-- The requests of the call of a thread that have yet to take effect. -/
def Thread.owed (θ : Thread) : List Request :=
  match θ.position with
  | .find key ewtsNgen method | .create key ewtsNgen method =>
    [.getLogger key ewtsNgen, .of key method]
  | .unlock key method => [.of key method]
  | .use key method | .check key method | .rank key method | .head key method
  | .named key method | .announce key method _ | .leave key method | .act key method =>
    [.method key method]
  | .route key level message | .waiting key level message _ | .opening key level message _ =>
    [.method key (.log level (some message))]
  | .outside | .write .. => []

/-- `g_current_logger` once the call of a thread has returned. -/
def Thread.next (θ : Thread) : Option Text :=
  match θ.position with
  | .find key _ none | .create key _ none | .unlock key none => some key
  | _ => θ.current

/-- The answer of a call that has taken effect and has yet to return. -/
def Thread.due (θ : Thread) : List Answer :=
  match θ.position with
  | .write .. => [.done]
  | _ => []

/-- What a thread has yet to insert into a stream for a logger. -/
def Thread.unwritten (key : Text) (sink : Option Text) (θ : Thread) : Text :=
  match θ.position with
  | .write own file rest => if own = key ∧ sink = file then rest.flatten else []
  | _ => []

/-- What the thread with the `log_mtx_` of a logger has yet to insert. -/
def World.unwritten (w : World τ) (key : Text) (sink : Option Text) : Text :=
  held (w.shared.logMutex key) w.threads (Thread.unwritten key sink)

/-- A process and a serial run that has done the same. -/
structure Refines (host : Host) (w : World τ) (s : Serial τ) : Prop where
  view : view host.env w.shared.loggers = view host.env s.loggers
  out : ∀ key sink, piecesOf key (w.shared.out sink) ++ w.unwritten key sink = s.out key sink
  bridged : w.shared.bridged = s.bridged
  answers : ∀ t, (w.threads t).answers ++ (w.threads t).due = s.answers t

theorem Loggers.initialized_at {loggers : Loggers} {key : Text} (h : loggers.Ready key) :
    (loggers.at key).initialized = true := by
  obtain ⟨lg, hlg, hinit⟩ := h
  rwa [Loggers.at_of_some hlg]

section Print

variable (s : Shared τ) (sink : Option Text)

/-- Notices are not inserted by `Log`. -/
theorem piecesOf_print_notice (key own notice : Text) (other : Option Text) :
    piecesOf key ((s.print sink (.notice own notice)).out other) = piecesOf key (s.out other) := by
  by_cases h : other = sink
  · simp [Shared.print, piecesOf, h]
  · simp [Shared.print, piecesOf, h]

theorem piecesOf_print_piece (key own piece : Text) (other : Option Text) :
    piecesOf key ((s.print sink (.piece own piece)).out other) =
      piecesOf key (s.out other) ++ if own = key ∧ other = sink then piece else [] := by
  by_cases h : other = sink
  · by_cases hkey : own = key
    · simp [Shared.print, piecesOf, h, hkey]
    · simp [Shared.print, piecesOf, h, hkey]
  · simp [Shared.print, piecesOf, h]

end Print

section Refinement

variable [DecidableEq τ] {w : World τ} {s : Serial τ} {t : τ} {now read opened : Timestamp}
  {θ θ' : Thread} {shared : Shared τ} {key : Text} {sink : Option Text}

/-- What a step leaves to insert. -/
abbrev World.unwrittenAfter (w : World τ) (t : τ) (shared : Shared τ) (θ' : Thread) :
    Text → Option Text → Text :=
  World.unwritten ⟨shared, Function.update w.threads t θ'⟩

/-- A step that neither takes the stream of a logger nor inserts into it. -/
theorem World.unwritten_same (hθ : w.threads t = θ)
    (hmutex : shared.logMutex key = w.shared.logMutex key)
    (hsame : θ'.unwritten key sink = θ.unwritten key sink) :
    w.unwrittenAfter t shared θ' key sink = w.unwritten key sink := by
  rw [unwrittenAfter, unwritten, unwritten, hmutex]
  cases w.shared.logMutex key with
  | none => rfl
  | some u =>
    by_cases hu : u = t
    · simp only [held, hu, Function.update_self, hsame, hθ]
    · simp only [held, Function.update_of_ne hu]

/-- The thread with the stream is the one that steps. -/
theorem World.unwritten_owner (hmutex : shared.logMutex key = some t) :
    w.unwrittenAfter t shared θ' key sink = θ'.unwritten key sink := by
  rw [unwrittenAfter, unwritten, hmutex]
  simp only [held, Function.update_self]

omit [DecidableEq τ] in
/-- A thread has it. -/
theorem World.unwritten_mine (hθ : w.threads t = θ) (hmutex : w.shared.logMutex key = some t) :
    w.unwritten key sink = θ.unwritten key sink := by
  rw [unwritten, hmutex, ← hθ]
  rfl

omit [DecidableEq τ] in
/-- Nobody has it. -/
theorem World.unwritten_free (hmutex : w.shared.logMutex key = none) :
    w.unwritten key sink = [] := by
  rw [unwritten, hmutex]
  rfl

/-- A step in which nothing takes effect. -/
theorem Refines.silent (h : Refines host w s) (hθ : w.threads t = θ)
    (hview : Cpp.view host.env shared.loggers = Cpp.view host.env w.shared.loggers)
    (hout : ∀ key sink, piecesOf key (shared.out sink) ++ w.unwrittenAfter t shared θ' key sink =
      piecesOf key (w.shared.out sink) ++ w.unwritten key sink)
    (hbridged : shared.bridged = w.shared.bridged)
    (hanswers : θ'.answers ++ θ'.due = θ.answers ++ θ.due) :
    Refines host ⟨shared, Function.update w.threads t θ'⟩ s := by
  refine ⟨hview.trans h.view, fun key sink => (hout key sink).trans (h.out key sink),
    hbridged.trans h.bridged, fun u => ?_⟩
  by_cases hu : u = t
  · simp only [hu, Function.update_self, hanswers]
    rw [← hθ]
    exact h.answers t
  · simp only [Function.update_of_ne hu]
    exact h.answers u

/-- A step in which a lookup takes effect. -/
theorem Refines.getLogger (h : Refines host w s) (hθ : w.threads t = θ) (now : Timestamp)
    {ewtsNgen : Bool}
    (hloggers : shared.loggers = w.shared.loggers.get key ewtsNgen)
    (hout : ∀ key sink, piecesOf key (shared.out sink) ++ w.unwrittenAfter t shared θ' key sink =
      piecesOf key (w.shared.out sink) ++ w.unwritten key sink)
    (hbridged : shared.bridged = w.shared.bridged)
    (hanswers : θ'.answers ++ θ'.due = θ.answers ++ θ.due) :
    Refines host ⟨shared, Function.update w.threads t θ'⟩
      (s.step host ⟨t, .getLogger key ewtsNgen, now, now⟩) := by
  have hsilent : Refines host ⟨{ shared with loggers := w.shared.loggers },
      Function.update w.threads t θ'⟩ s := h.silent hθ rfl hout hbridged hanswers
  refine ⟨?_, hsilent.out, hsilent.bridged, hsilent.answers⟩
  rw [hloggers]
  simp only [Serial.step]
  rw [view_get, view_get, h.view]

/-- A step in which a call returns, or is going to. -/
theorem Refines.answer (h : Refines host w s) (hθ : w.threads t = θ) {answer : Answer}
    (hanswers : θ'.answers ++ θ'.due = θ.answers ++ θ.due ++ [answer]) (u : τ) :
    (Function.update w.threads t θ' u).answers ++ (Function.update w.threads t θ' u).due =
      (s.answer t answer).answers u := by
  rw [Serial.answer, ← h.answers t]
  by_cases hu : u = t
  · simp only [hu, Function.update_self, hanswers, hθ]
  · simp only [Function.update_of_ne hu]
    exact h.answers u

/-- A step in which `EwtsInit` takes effect. -/
theorem Refines.select (h : Refines host w s) (hθ : w.threads t = θ) (now : Timestamp)
    (hloggers : shared.loggers = w.shared.loggers)
    (hout : ∀ key sink, piecesOf key (shared.out sink) ++ w.unwrittenAfter t shared θ' key sink =
      piecesOf key (w.shared.out sink) ++ w.unwritten key sink)
    (hbridged : shared.bridged = w.shared.bridged)
    (hanswers : θ'.answers ++ θ'.due = θ.answers ++ θ.due ++ [.done]) :
    Refines host ⟨shared, Function.update w.threads t θ'⟩
      (s.step host ⟨t, .select key, now, now⟩) := by
  refine ⟨?_, fun key sink => (hout key sink).trans (h.out key sink), hbridged.trans h.bridged,
    h.answer hθ hanswers⟩
  rw [hloggers]
  exact h.view

/-- A step in which a method takes effect. -/
theorem Refines.method (h : Refines host w s) (hθ : w.threads t = θ) {lg lg' : Logger}
    {m : Method} {output : Option Output} {answer : Answer}
    (hlg : Cpp.view host.env w.shared.loggers key = some lg)
    (hrun : m.run { host with now := read } opened lg = (output, answer, lg'))
    (hview : Cpp.view host.env shared.loggers =
      Function.update (Cpp.view host.env w.shared.loggers) key (some (lg'.initOnce host.env)))
    (hout : ∀ k sink, piecesOf k (shared.out sink) ++ w.unwrittenAfter t shared θ' k sink =
      (s.deliver key output).out k sink)
    (hbridged : shared.bridged = (s.deliver key output).bridged)
    (hanswers : θ'.answers ++ θ'.due = θ.answers ++ θ.due ++ [answer]) :
    Refines host ⟨shared, Function.update w.threads t θ'⟩
      (s.step host ⟨t, .method key m, read, opened⟩) := by
  rw [h.view] at hlg
  obtain ⟨hview', hout', hbridged', hanswers'⟩ := Serial.step_method hlg hrun (t := t)
  refine ⟨?_, fun k sink => ?_, hbridged.trans hbridged'.symm, fun u => ?_⟩
  · rw [hview, hview', h.view]
  · rw [hout', ← hout]
  · rw [hanswers']
    exact h.answer hθ hanswers u

/-- A step in which a ready logger is asked, and is left as it is. -/
theorem Refines.asked (h : Refines host w s) (hθ : w.threads t = θ) {m : Method}
    {output : Option Output} {answer : Answer} (hready : w.shared.loggers.Ready key)
    (hrun : m.run { host with now := read } opened (w.shared.loggers.at key) =
      (output, answer, w.shared.loggers.at key))
    (hloggers : shared.loggers = w.shared.loggers)
    (hout : ∀ k sink, piecesOf k (shared.out sink) ++ w.unwrittenAfter t shared θ' k sink =
      (s.deliver key output).out k sink)
    (hbridged : shared.bridged = (s.deliver key output).bridged)
    (hanswers : θ'.answers ++ θ'.due = θ.answers ++ θ.due ++ [answer]) :
    Refines host ⟨shared, Function.update w.threads t θ'⟩
      (s.step host ⟨t, .method key m, read, opened⟩) := by
  have hlg : Cpp.view host.env w.shared.loggers key = some (w.shared.loggers.at key) :=
    view_of_ready hready
  refine h.method hθ hlg hrun ?_ hout hbridged hanswers
  obtain ⟨lg, hsome, hinit⟩ := hready
  rw [Loggers.at_of_some hsome] at hlg ⊢
  rw [hloggers, Logger.initOnce_of_initialized hinit, ← hlg, Function.update_eq_self]

omit [DecidableEq τ] in
/-- Before the first use nothing takes effect, unless there is nothing to log. -/
theorem Thread.effect_use {s : Shared τ} {method : Method} {current : Option Text}
    {todo : List Call} {answers : List Answer} (h : ∀ level, method ≠ .log level none) :
    Thread.effect host s t now ⟨.use key method, current, todo, answers⟩ = [] := by
  cases method with
  | log level message =>
    cases message with
    | none => exact absurd rfl (h level)
    | some message => rfl
  | _ => rfl

omit [DecidableEq τ] in
/-- Nothing takes effect in a thread that waits. -/
theorem Thread.effect_of_blocked {s : Shared τ} (h : θ.Blocked s) :
    θ.effect host s t now = [] := by
  obtain ⟨position, current, todo, answers⟩ := θ
  cases position with
  | outside | waiting => rfl
  | use key method => exact Thread.effect_use h.1
  | _ => exact h.elim

/-- A step that leaves the streams alone prints nothing. -/
theorem Refines.out_same (hθ : w.threads t = θ) (hout : shared.out = w.shared.out)
    (hmutex : shared.logMutex = w.shared.logMutex)
    (hsame : ∀ key sink, θ'.unwritten key sink = θ.unwritten key sink) (key : Text)
    (sink : Option Text) : piecesOf key (shared.out sink) ++ w.unwrittenAfter t shared θ' key sink =
      piecesOf key (w.shared.out sink) ++ w.unwritten key sink := by
  rw [hout, World.unwritten_same hθ (congrFun hmutex key) (hsame key sink)]

/-! ### Lookups and first uses -/

section Lookup

variable {current : Option Text} {todo : List Call} {answers : List Answer} {ewtsNgen : Bool}

/-- A lookup that finds its logger takes effect there. -/
theorem Refines.found (h : Refines host w s) {method : Option Method}
    (hθ : w.threads t = ⟨.find key ewtsNgen method, current, todo, answers⟩)
    (hpresent : w.shared.loggers.Present key) :
    Refines host
      ⟨w.shared, Function.update w.threads t ⟨.unlock key method, current, todo, answers⟩⟩
      (runFrom (Serial.step host) s (Thread.effect host w.shared t now
        ⟨.find key ewtsNgen method, current, todo, answers⟩)) := by
  obtain ⟨lg, hlg⟩ := hpresent
  have heffect : Thread.effect host w.shared t now
      ⟨.find key ewtsNgen method, current, todo, answers⟩ =
        [⟨t, .getLogger key ewtsNgen, now, now⟩] := by
    simp only [Thread.effect, hlg]
  rw [heffect]
  exact h.getLogger hθ now (Loggers.get_of_some hlg _).symm
    (Refines.out_same hθ rfl rfl fun _ _ => rfl) rfl rfl

/-- Without one it takes effect when the logger is there. -/
theorem Refines.create (h : Refines host w s) {method : Option Method} (now : Timestamp)
    (hθ : w.threads t = ⟨.create key ewtsNgen method, current, todo, answers⟩)
    (hnew : w.shared.loggers key = none) :
    Refines host
      ⟨w.shared.setLogger key (.new key ewtsNgen),
        Function.update w.threads t ⟨.unlock key method, current, todo, answers⟩⟩
      (s.step host ⟨t, .getLogger key ewtsNgen, now, now⟩) := by
  refine h.getLogger hθ now ?_ (Refines.out_same hθ rfl rfl fun _ _ => rfl) rfl rfl
  rw [Loggers.get_of_none hnew]
  rfl

/-- A null format takes effect before the first use. -/
theorem Refines.nothing (h : Refines host w s) {level : Int} (now : Timestamp)
    (hθ : w.threads t = ⟨.use key (.log level none), current, todo, answers⟩)
    (hpresent : w.shared.loggers.Present key) :
    Refines host
      ⟨w.shared, Function.update w.threads t ⟨.outside, current, todo, answers ++ [.done]⟩⟩
      (s.step host ⟨t, .method key (.log level none), now, now⟩) := by
  obtain ⟨lg, hlg⟩ := hpresent
  have hsame (key : Text) (sink : Option Text) :
      Thread.unwritten key sink ⟨.outside, current, todo, answers ++ [.done]⟩ = [] := rfl
  refine h.method hθ (view_of_some hlg) rfl ?_ (fun k sink => ?_) h.bridged ?_
  · rw [Logger.initOnce_initOnce, ← view_of_some hlg, Function.update_eq_self]
  · exact (Refines.out_same hθ rfl rfl hsame k sink).trans (h.out k sink)
  · simp [Thread.due]

/-- The serial run has already read the environment. -/
theorem Refines.initialise (h : Refines host w s) {method : Method} (mpiRank : Int)
    (hθ : w.threads t = ⟨.check key method, current, todo, answers⟩)
    (hpresent : w.shared.loggers.Present key) :
    Refines host
      ⟨{ w.shared.setLogger key ((w.shared.loggers.at key).initOnce host.env) with
          mpiRank := mpiRank },
        Function.update w.threads t ⟨.rank key method, current, todo, answers⟩⟩ s := by
  obtain ⟨lg, hlg⟩ := hpresent
  refine h.silent hθ ?_ (Refines.out_same hθ rfl rfl fun _ _ => rfl) rfl rfl
  simp only [Shared.setLogger, Loggers.at_of_some hlg]
  rw [view_set, Logger.initOnce_initOnce, ← view_of_some hlg, Function.update_eq_self]

/-- The serial run has no notices. -/
theorem Refines.notice (h : Refines host w s) {method : Method} {rest : List Text} (notice : Text)
    (hθ : w.threads t = ⟨.announce key method (notice :: rest), current, todo, answers⟩) :
    Refines host
      ⟨w.shared.print none (.notice key notice),
        Function.update w.threads t ⟨.announce key method rest, current, todo, answers⟩⟩ s := by
  refine h.silent hθ rfl (fun key' sink => ?_) rfl rfl
  have hsame : w.unwrittenAfter t (w.shared.print none (.notice key notice))
      ⟨.announce key method rest, current, todo, answers⟩ key' sink = w.unwritten key' sink :=
    World.unwritten_same hθ rfl rfl
  rw [piecesOf_print_notice, hsame]

end Lookup

/-! ### Answers and messages -/

section Messages

variable {current : Option Text} {todo : List Call} {answers : List Answer} {level : Int}
  {message : Text}

/-- A method of a ready logger that returns without its stream takes effect there. -/
theorem Refines.returned (h : Refines host w s) {m : Method} {output : Option Output}
    {answer : Answer} {bridged : List (Text × Int × Text)} (hθ : w.threads t = θ)
    (hready : w.shared.loggers.Ready key)
    (hrun : m.run { host with now := now } now (w.shared.loggers.at key) =
      (output, answer, w.shared.loggers.at key))
    (hout : (s.deliver key output).out = s.out)
    (hbridged : (s.deliver key output).bridged = bridged)
    (hlines : ∀ key sink, θ.unwritten key sink = []) (hdue : θ.due = []) :
    Refines host
      ⟨{ w.shared with bridged := bridged },
        Function.update w.threads t ⟨.outside, θ.current, θ.todo, θ.answers ++ [answer]⟩⟩
      (s.step host ⟨t, .method key m, now, now⟩) := by
  have hsame (key : Text) (sink : Option Text) :
      Thread.unwritten key sink ⟨.outside, θ.current, θ.todo, θ.answers ++ [answer]⟩ =
        θ.unwritten key sink := (hlines key sink).symm
  refine h.asked hθ hready hrun rfl (fun k sink => ?_) hbridged.symm ?_
  · rw [hout, ← h.out]
    exact Refines.out_same hθ rfl rfl hsame k sink
  · rw [hdue, List.append_nil]
    exact List.append_nil _

/-- A query takes effect when it returns. -/
theorem Refines.query (h : Refines host w s) {method : Method} {answer : Answer}
    (hθ : w.threads t = ⟨.act key method, current, todo, answers⟩)
    (hready : w.shared.loggers.Ready key)
    (hask : method.ask (w.shared.loggers.at key) = some answer) :
    Refines host
      ⟨w.shared, Function.update w.threads t ⟨.outside, current, todo, answers ++ [answer]⟩⟩
      (runFrom (Serial.step host) s (Thread.effect host w.shared t now
        ⟨.act key method, current, todo, answers⟩)) := by
  have heffect : Thread.effect host w.shared t now ⟨.act key method, current, todo, answers⟩ =
      [⟨t, .method key method, now, now⟩] := by
    cases method with
    | log level message =>
      cases message with
      | none => rfl
      | some message => cases hask
    | _ => rfl
  rw [heffect]
  exact h.returned hθ hready (Method.run_ask (Loggers.initialized_at hready) hask) rfl
    h.bridged.symm (fun _ _ => rfl) rfl

/-- A message that the filter drops takes effect at the filter. -/
theorem Refines.drop (h : Refines host w s)
    (hθ : w.threads t = ⟨.act key (.log level (some message)), current, todo, answers⟩)
    (hready : w.shared.loggers.Ready key) (hdrops : (w.shared.loggers.at key).Drops level) :
    Refines host
      ⟨w.shared, Function.update w.threads t ⟨.outside, current, todo, answers ++ [.done]⟩⟩
      (runFrom (Serial.step host) s (Thread.effect host w.shared t now
        ⟨.act key (.log level (some message)), current, todo, answers⟩)) := by
  have heffect : Thread.effect host w.shared t now
      ⟨.act key (.log level (some message)), current, todo, answers⟩ =
        [⟨t, .method key (.log level (some message)), now, now⟩] := if_pos hdrops
  rw [heffect]
  exact h.returned hθ hready (Method.run_drops (Loggers.initialized_at hready) hdrops) rfl
    h.bridged.symm (fun _ _ => rfl) rfl

/-- A message on the route to the bridge takes effect there. -/
theorem Refines.bridge (h : Refines host w s)
    (hθ : w.threads t = ⟨.route key level message, current, todo, answers⟩)
    (hready : w.shared.loggers.Ready key) (hpasses : ¬ (w.shared.loggers.at key).Drops level)
    (hbridges : (w.shared.loggers.at key).Bridges host) :
    Refines host
      ⟨{ w.shared with bridged := w.shared.bridged ++
          [(cStr (w.shared.loggers.at key).ewtsId, level, cStr message)] },
        Function.update w.threads t ⟨.outside, current, todo, answers ++ [.done]⟩⟩
      (runFrom (Serial.step host) s (Thread.effect host w.shared t now
        ⟨.route key level message, current, todo, answers⟩)) := by
  have heffect : Thread.effect host w.shared t now
      ⟨.route key level message, current, todo, answers⟩ =
        [⟨t, .method key (.log level (some message)), now, now⟩] := if_pos hbridges
  rw [heffect]
  refine h.returned hθ hready
    (Method.run_bridges (Loggers.initialized_at hready) hpasses hbridges) rfl ?_
    (fun _ _ => rfl) rfl
  rw [h.bridged]
  rfl

end Messages

/-! ### Streams -/

section Streams

variable {current : Option Text} {todo : List Call} {answers : List Answer} {level : Int}
  {message : Text}

/-- A thread with nothing to insert takes the stream of a logger or gives it back. -/
theorem World.unwritten_handed (hθ : w.threads t = θ) {holder : Option τ}
    (hmutex : shared.logMutex = Function.update w.shared.logMutex key holder)
    (hbefore : w.shared.logMutex key = none ∨ w.shared.logMutex key = some t)
    (hafter : holder = none ∨ holder = some t) (hlines : ∀ k sink, θ.unwritten k sink = [])
    (hlines' : ∀ k sink, θ'.unwritten k sink = []) (k : Text) (sink : Option Text) :
    w.unwrittenAfter t shared θ' k sink = w.unwritten k sink := by
  by_cases hk : k = key
  · have hheld : shared.logMutex key = holder := by rw [hmutex, Function.update_self]
    have hnothing : w.unwritten key sink = [] := by
      rcases hbefore with hfree | howner
      · exact World.unwritten_free hfree
      · exact (World.unwritten_mine hθ howner).trans (hlines key sink)
    rw [hk, hnothing]
    rcases hafter with rfl | rfl
    · exact World.unwritten_free hheld
    · exact (World.unwritten_owner hheld).trans (hlines' key sink)
  · refine World.unwritten_same hθ ?_ ((hlines' k sink).trans (hlines k sink).symm)
    rw [hmutex, Function.update_of_ne hk]

/-- A thread that takes the stream of a logger has nothing to insert yet. -/
theorem Refines.acquire (h : Refines host w s)
    (hθ : w.threads t = ⟨.waiting key level message read, current, todo, answers⟩)
    (hfree : w.shared.logMutex key = none) :
    Refines host
      ⟨{ w.shared with logMutex := Function.update w.shared.logMutex key (some t) },
        Function.update w.threads t ⟨.opening key level message read, current, todo, answers⟩⟩
      s := by
  refine h.silent hθ rfl (fun k sink => ?_) rfl rfl
  refine congrArg (piecesOf k (w.shared.out sink) ++ ·) ?_
  exact World.unwritten_handed hθ rfl (Or.inl hfree) (Or.inr rfl) (fun _ _ => rfl)
    (fun _ _ => rfl) k sink

/-- A file that cannot be opened ends the call with an exception. -/
theorem Refines.throws (h : Refines host w s)
    (hθ : w.threads t = ⟨.opening key level message read, current, todo, answers⟩)
    (howner : w.shared.logMutex key = some t) (hready : w.shared.loggers.Ready key)
    (hpasses : ¬ (w.shared.loggers.at key).Drops level)
    (halone : ¬ (w.shared.loggers.at key).Bridges host)
    (hopen : (w.shared.loggers.at key).openStandaloneFile { host with now := now } = none) :
    Refines host
      ⟨{ w.shared with logMutex := Function.update w.shared.logMutex key none },
        Function.update w.threads t
          ⟨.outside, current, todo, answers ++ [.filesystemError]⟩⟩
      (s.step host ⟨t, .method key (.log level (some message)), read, now⟩) := by
  refine h.asked hθ hready
    (Method.run_throws (Loggers.initialized_at hready) hpasses halone hopen) rfl
    (fun k sink => ?_) h.bridged ?_
  · refine Eq.trans (congrArg (piecesOf k (w.shared.out sink) ++ ·) ?_) (h.out k sink)
    exact World.unwritten_handed hθ rfl (Or.inr howner) (Or.inl rfl) (fun _ _ => rfl)
      (fun _ _ => rfl) k sink
  · simp [Thread.due]

/-- A message that stays in the process takes effect when its file is open. -/
theorem Refines.alone (h : Refines host w s) {lg : Logger}
    (hθ : w.threads t = ⟨.opening key level message read, current, todo, answers⟩)
    (howner : w.shared.logMutex key = some t) (hready : w.shared.loggers.Ready key)
    (hpasses : ¬ (w.shared.loggers.at key).Drops level)
    (halone : ¬ (w.shared.loggers.at key).Bridges host)
    (hopen : (w.shared.loggers.at key).openStandaloneFile { host with now := now } = some lg) :
    Refines host
      ⟨w.shared.setLogger key lg,
        Function.update w.threads t
          ⟨.write key lg.out (linePieces read lg.ewtsIdPadded level message), current, todo,
            answers⟩⟩
      (s.step host ⟨t, .method key (.log level (some message)), read, now⟩) := by
  refine h.method hθ (view_of_ready hready)
    (Method.run_alone (Loggers.initialized_at hready) hpasses halone hopen) view_set
    (fun k sink => ?_) h.bridged ?_
  · have hmutex : (w.shared.setLogger key lg).logMutex k = w.shared.logMutex k := rfl
    rw [Serial.deliver_standalone, ← h.out]
    by_cases hk : key = k
    · rw [← hk] at hmutex ⊢
      rw [World.unwritten_owner (hmutex.trans howner), World.unwritten_mine hθ howner]
      simp [Shared.setLogger, Thread.unwritten]
    · rw [World.unwritten_same hθ hmutex]
      · simp [Shared.setLogger, hk]
      · simp [Thread.unwritten, hk]
  · simp [Thread.due]

/-- The serial run has already inserted the piece. -/
theorem Refines.insert (h : Refines host w s) {file : Option Text} {rest : List Text}
    (piece : Text) (hθ : w.threads t = ⟨.write key file (piece :: rest), current, todo, answers⟩)
    (howner : w.shared.logMutex key = some t) :
    Refines host
      ⟨w.shared.print file (.piece key piece),
        Function.update w.threads t ⟨.write key file rest, current, todo, answers⟩⟩ s := by
  refine h.silent hθ rfl (fun k sink => ?_) rfl rfl
  have hmutex : (w.shared.print file (.piece key piece)).logMutex k = w.shared.logMutex k := rfl
  rw [piecesOf_print_piece]
  by_cases hk : key = k
  · rw [← hk] at hmutex ⊢
    rw [World.unwritten_owner (hmutex.trans howner), World.unwritten_mine hθ howner]
    by_cases hfile : sink = file
    · simp [Thread.unwritten, hfile]
    · simp [Thread.unwritten, hfile]
  · rw [World.unwritten_same hθ hmutex]
    · simp [hk]
    · simp [Thread.unwritten, hk]

/-- A message returns after its last piece. -/
theorem Refines.release (h : Refines host w s) {file : Option Text}
    (hθ : w.threads t = ⟨.write key file [], current, todo, answers⟩)
    (howner : w.shared.logMutex key = some t) :
    Refines host
      ⟨{ w.shared with logMutex := Function.update w.shared.logMutex key none },
        Function.update w.threads t ⟨.outside, current, todo, answers ++ [.done]⟩⟩ s := by
  refine h.silent hθ rfl (fun k sink => ?_) rfl ?_
  · have hlines (k : Text) (sink : Option Text) :
        Thread.unwritten k sink ⟨.write key file [], current, todo, answers⟩ = [] := by
      simp [Thread.unwritten]
    refine congrArg (piecesOf k (w.shared.out sink) ++ ·) ?_
    exact World.unwritten_handed hθ rfl (Or.inr howner) (Or.inl rfl) hlines (fun _ _ => rfl) k sink
  · simp [Thread.due]

end Streams

/-- Every step does what the serial run of its effects does. -/
theorem Thread.Move.refines {r : Shared τ × Thread} (hmove : Thread.Move host w.shared t now θ r)
    (hθ : w.threads t = θ) (hinv : w.Invariant host) (h : Refines host w s) :
    Refines host ⟨r.1, Function.update w.threads t r.2⟩
      (runFrom (Serial.step host) s (θ.effect host w.shared t now)) := by
  have hsound : θ.position.Sound host w.shared.loggers := hθ ▸ (hinv.sound t).position
  have howner {key : Text} (hlog : θ.InLog key) : w.shared.logMutex key = some t :=
    (hinv.log key t).mp (hθ.symm ▸ hlog)
  cases hmove with
  | stay hblocked =>
    rw [Thread.effect_of_blocked hblocked]
    exact h.silent hθ rfl (Refines.out_same hθ rfl rfl fun _ _ => rfl) rfl rfl
  | enter | direct | again | rank | ranked | head | named | announced | leave | hold =>
    exact h.silent hθ rfl (Refines.out_same hθ rfl rfl fun _ _ => rfl) rfl rfl
  | begin hnothing =>
    rw [Thread.effect_use hnothing]
    exact h.silent hθ rfl (Refines.out_same hθ rfl rfl fun _ _ => rfl) rfl rfl
  | @missing key ewtsNgen method current todo answers hnone =>
    have heffect : Thread.effect host w.shared t now
        ⟨.find key ewtsNgen method, current, todo, answers⟩ = [] := by
      simp only [Thread.effect, hnone]
    rw [heffect]
    exact h.silent hθ rfl (Refines.out_same hθ rfl rfl fun _ _ => rfl) rfl rfl
  | found hpresent => exact h.found hθ hpresent
  | create => exact h.create now hθ hsound
  | select =>
    exact h.select hθ now rfl (Refines.out_same hθ rfl rfl fun _ _ => rfl) rfl
      (by simp [Thread.due])
  | nothing => exact h.nothing now hθ hsound
  | initialise => exact h.initialise _ hθ hsound
  | notice => exact h.notice _ hθ
  | query hask => exact h.query hθ hsound hask
  | drop hdrops => exact h.drop hθ hsound hdrops
  | @pass key level message current todo answers hpasses =>
    have heffect : Thread.effect host w.shared t now
        ⟨.act key (.log level (some message)), current, todo, answers⟩ = [] := if_neg hpasses
    rw [heffect]
    exact h.silent hθ rfl (Refines.out_same hθ rfl rfl fun _ _ => rfl) rfl rfl
  | bridge hbridges => exact h.bridge hθ hsound.1 hsound.2 hbridges
  | @alone key level message current todo answers halone =>
    have heffect : Thread.effect host w.shared t now
        ⟨.route key level message, current, todo, answers⟩ = [] := if_neg halone
    rw [heffect]
    exact h.silent hθ rfl (Refines.out_same hθ rfl rfl fun _ _ => rfl) rfl rfl
  | acquire hfree => exact h.acquire hθ hfree
  | throws hopen =>
    obtain ⟨hready, hpasses, halone⟩ := hsound
    exact h.throws hθ (howner rfl) hready hpasses halone hopen
  | opened hopen =>
    obtain ⟨hready, hpasses, halone⟩ := hsound
    exact h.alone hθ (howner rfl) hready hpasses halone hopen
  | insert => exact h.insert _ hθ (howner rfl)
  | release => exact h.release hθ (howner rfl)

omit [DecidableEq τ] in
/-- The process before the first call is the serial run of no request. -/
theorem Refines.start (programs : τ → List Call) :
    Refines host (World.start programs) Serial.start where
  view := rfl
  out _ _ := rfl
  bridged := rfl
  answers _ := rfl

/-- Every step refines the serial run of its effects. -/
theorem Refines.step (hinv : w.Invariant host) (h : Refines host w s) (turn : τ × Timestamp) :
    Refines host (w.step host turn) (runFrom (Serial.step host) s (w.effect host turn)) :=
  (Thread.step_move ..).refines rfl hinv h

/-! ## The program of a thread -/

/-- The request of an event of a thread. -/
def Event.requestOf (t : τ) (e : Event τ) : Option Request :=
  if e.thread = t then some e.request else none

omit [DecidableEq τ] in
/-- Only the requests of the thread that steps take effect. -/
theorem Thread.effect_thread {s : Shared τ} : ∀ e ∈ θ.effect host s t now, e.thread = t := by
  intro e he
  unfold Thread.effect at he
  split at he
  · split at he
    · rw [List.mem_singleton.mp he]
    · cases he
  · rw [List.mem_singleton.mp he]
  · rw [List.mem_singleton.mp he]
  · rw [List.mem_singleton.mp he]
  · split at he
    · rw [List.mem_singleton.mp he]
    · cases he
  · rw [List.mem_singleton.mp he]
  · split at he
    · rw [List.mem_singleton.mp he]
    · cases he
  · rw [List.mem_singleton.mp he]
  · cases he

omit [DecidableEq τ] in
/-- What a thread still has to do: the rest of its call, then its other calls. -/
theorem Thread.Move.requests_eq {s : Shared τ} (hmove : Thread.Move host s t now θ r) :
    θ.owed ++ requests θ.next θ.todo =
      (θ.effect host s t now).map Event.request ++ (r.2.owed ++ requests r.2.next r.2.todo) := by
  cases hmove with
  | stay hblocked => rw [Thread.effect_of_blocked hblocked, List.map_nil, List.nil_append]
  | @enter call current todo answers key ewtsNgen hlookup =>
    have hcall : call.requests current = [.getLogger key ewtsNgen, .of key call.method] ∧
        call.next current =
          Thread.next ⟨.find key ewtsNgen call.method, current, todo, answers⟩ := by
      cases call with
      | current method =>
        cases current with
        | none =>
          cases hlookup
          exact ⟨rfl, rfl⟩
        | some key => cases hlookup
      | ewtsInit | of =>
        cases hlookup
        exact ⟨rfl, rfl⟩
    change requests current (call :: todo) = _
    rw [requests, hcall.1, hcall.2]
    rfl
  | @missing key ewtsNgen method current todo answers hnone =>
    have heffect : Thread.effect host s t now ⟨.find key ewtsNgen method, current, todo, answers⟩ =
        [] := by
      simp only [Thread.effect, hnone]
    rw [heffect]
    cases method <;> rfl
  | @found key ewtsNgen method current todo answers hpresent =>
    obtain ⟨lg, hlg⟩ := hpresent
    have heffect : Thread.effect host s t now ⟨.find key ewtsNgen method, current, todo, answers⟩ =
        [⟨t, .getLogger key ewtsNgen, now, now⟩] := by
      simp only [Thread.effect, hlg]
    rw [heffect]
    cases method <;> rfl
  | @create key ewtsNgen method => cases method <;> rfl
  | begin hnothing =>
    rw [Thread.effect_use hnothing]
    rfl
  | @query key method _ _ _ answer hask =>
    cases method with
    | log level message =>
      cases message with
      | none => rfl
      | some message => cases hask
    | _ => rfl
  | @drop key level message current todo answers hdrops =>
    have heffect : Thread.effect host s t now
        ⟨.act key (.log level (some message)), current, todo, answers⟩ =
          [⟨t, .method key (.log level (some message)), now, now⟩] := if_pos hdrops
    rw [heffect]
    rfl
  | @pass key level message current todo answers hpasses =>
    have heffect : Thread.effect host s t now
        ⟨.act key (.log level (some message)), current, todo, answers⟩ = [] := if_neg hpasses
    rw [heffect]
    rfl
  | @bridge key level message current todo answers hbridges =>
    have heffect : Thread.effect host s t now ⟨.route key level message, current, todo, answers⟩ =
        [⟨t, .method key (.log level (some message)), now, now⟩] := if_pos hbridges
    rw [heffect]
    rfl
  | @alone key level message current todo answers halone =>
    have heffect : Thread.effect host s t now ⟨.route key level message, current, todo, answers⟩ =
        [] := if_neg halone
    rw [heffect]
    rfl
  | _ => rfl

/-- The requests that take effect are taken from the front of what a thread has to do. -/
theorem World.requests_step (w : World τ) (turn : τ × Timestamp) (t : τ) :
    (w.threads t).owed ++ requests (w.threads t).next (w.threads t).todo =
      (w.effect host turn).filterMap (Event.requestOf t) ++
        (((w.step host turn).threads t).owed ++
          requests ((w.step host turn).threads t).next ((w.step host turn).threads t).todo) := by
  obtain ⟨u, now⟩ := turn
  have hthread : ∀ e ∈ w.effect host (u, now), e.thread = u := Thread.effect_thread
  by_cases hu : t = u
  · have hrequests := (Thread.step_move host w.shared u now (w.threads u)).requests_eq
    have hown : (w.effect host (u, now)).filterMap (Event.requestOf u) =
        (w.effect host (u, now)).map Event.request := by
      rw [← List.filterMap_eq_map]
      exact List.filterMap_congr fun e he => if_pos (hthread e he)
    rw [hu, hown]
    simp only [World.step, Function.update_self]
    exact hrequests
  · have hnone : (w.effect host (u, now)).filterMap (Event.requestOf t) = [] := by
      rw [List.filterMap_eq_nil_iff]
      exact fun e he => if_neg fun h => hu (h.symm.trans (hthread e he))
    rw [hnone, List.nil_append]
    simp only [World.step, Function.update_of_ne hu]

/-! ## Runs -/

/-- The process after a schedule of turns. -/
abbrev World.run (host : Host) (programs : τ → List Call) (schedule : List (τ × Timestamp)) :
    World τ :=
  runFrom (World.step host) (World.start programs) schedule

/-- The requests in the order in which they take effect. -/
abbrev World.order (host : Host) (programs : τ → List Call) (schedule : List (τ × Timestamp)) :
    List (Event τ) :=
  effects (World.step host) (World.effect host) (World.start programs) schedule

/-- Every run refines the serial run of the requests that take effect in it. -/
theorem World.refines_run (host : Host) (programs : τ → List Call)
    (schedule : List (τ × Timestamp)) :
    (World.run host programs schedule).Invariant host ∧
      Refines host (World.run host programs schedule)
        (runFrom (Serial.step host) Serial.start (World.order host programs schedule)) := by
  refine runFrom_refines (R := fun w s => w.Invariant host ∧ Refines host w s) ?_
    ⟨.start programs, .start programs⟩
  rintro w s turn - ⟨hinv, h⟩
  exact ⟨hinv.step turn, h.step hinv turn⟩

/-- A serial order of requests that explains what a process has done. -/
structure Explains (host : Host) (programs : τ → List Call) (w : World τ)
    (order : List (Event τ)) : Prop where
  /-- The order keeps the program of each thread, on the current loggers of this thread. -/
  requests : ∀ t, Cpp.requests none (programs t) = order.filterMap (Event.requestOf t) ++
    ((w.threads t).owed ++ Cpp.requests (w.threads t).next (w.threads t).todo)
  loggers : Cpp.view host.env w.shared.loggers =
    Cpp.view host.env (runFrom (Serial.step host) Serial.start order).loggers
  out : ∀ key sink, piecesOf key (w.shared.out sink) ++ w.unwritten key sink =
    (runFrom (Serial.step host) Serial.start order).out key sink
  bridged : w.shared.bridged = (runFrom (Serial.step host) Serial.start order).bridged
  answers : ∀ t, (w.threads t).answers ++ (w.threads t).due =
    (runFrom (Serial.step host) Serial.start order).answers t

/-- The requests in the order in which they take effect explain a run. -/
theorem World.explains_run (host : Host) (programs : τ → List Call)
    (schedule : List (τ × Timestamp)) :
    Explains host programs (World.run host programs schedule)
      (World.order host programs schedule) := by
  obtain ⟨_, h⟩ := World.refines_run host programs schedule
  refine ⟨fun t => ?_, h.view, h.out, h.bridged, h.answers⟩
  let ahead (w : World τ) : List Request :=
    (w.threads t).owed ++ Cpp.requests (w.threads t).next (w.threads t).todo
  have hstep (w : World τ) (turn : τ × Timestamp) :
      ahead w = (w.effect host turn).filterMap (Event.requestOf t) ++ ahead (w.step host turn) :=
    World.requests_step w turn t
  exact effects_ledger hstep (World.start programs) schedule

/-- Whatever the interleaving, the loggers, what each of them has written to each stream, the
bridged messages and the answers are those of a serial run of whole requests. Its order keeps the
program of each thread, and what has taken effect at a point of the run comes before what takes
effect later. -/
theorem World.exists_serial_requests (host : Host) (programs : τ → List Call)
    (schedule : List (τ × Timestamp)) :
    ∃ order, Explains host programs (World.run host programs schedule) order ∧
      ∀ before after, schedule = before ++ after → ∃ early late, order = early ++ late ∧
        Explains host programs (World.run host programs before) early := by
  refine ⟨_, World.explains_run host programs schedule, ?_⟩
  rintro before after rfl
  exact ⟨_, _, effects_append .., World.explains_run host programs before⟩

end Refinement

end Ewts.Cpp
