import Ewts.Core.Lock
import Ewts.Core.Refinement
import Ewts.Runtime.Cpp.Threads

/-!
# Steps of threads in the C++ runtime

What a thread can do, case by case, and what holds between two steps: each mutex keeps its
places apart, and a logger that has read the environment only ever opens its file.
-/

namespace Ewts.Cpp

/-! ## Loggers by key -/

section Loggers

variable {host : Host} {env : Environ} {loggers : Loggers} {lg lg' : Logger} {key : Text}

/-- A logger without its stream: what `init_once` settles. -/
def Logger.settled (lg : Logger) : Logger := { lg with out := none }

/-- The filter of `Log`. -/
def Logger.Drops (lg : Logger) (level : Int) : Prop := lg.enabled = false ∨ level < lg.level

instance (lg : Logger) (level : Int) : Decidable (lg.Drops level) :=
  inferInstanceAs (Decidable (_ ∨ _))

/-- The route of `Log`. -/
def Logger.Bridges (host : Host) (lg : Logger) : Prop :=
  (lg.useNgen && isNgenActive host.env && host.linked) = true

instance (lg : Logger) : Decidable (lg.Bridges host) := inferInstanceAs (Decidable (_ = true))

@[simp] theorem Logger.initialized_initOnce : (lg.initOnce env).initialized = true := by
  unfold initOnce
  split
  · assumption
  · rfl

@[simp] theorem Logger.ewtsId_initOnce : (lg.initOnce env).ewtsId = lg.ewtsId := by
  unfold initOnce
  split <;> rfl

@[simp] theorem Logger.useNgen_initOnce : (lg.initOnce env).useNgen = lg.useNgen := by
  unfold initOnce
  split <;> rfl

theorem Logger.initOnce_of_initialized (h : lg.initialized = true) : lg.initOnce env = lg := by
  rw [initOnce, if_pos h]

/-- Opening a file is all that it does. -/
theorem Logger.openStandaloneFile_settled (h : lg.openStandaloneFile host = some lg') :
    lg'.settled = lg.settled := by
  unfold openStandaloneFile at h
  simp only at h
  split at h
  · rw [Option.some.inj h]
  · split at h
    · rw [Option.some.inj h]
    · split at h
      · cases h
      · rw [← Option.some.inj h]
        rfl

/-- It keeps everything but the stream. -/
theorem Logger.eq_of_settled (h : lg'.settled = lg.settled) : lg' = { lg with out := lg'.out } := by
  obtain ⟨ewtsId, padded, useNgen, initialized, enabled, level, out⟩ := lg
  obtain ⟨ewtsId', padded', useNgen', initialized', enabled', level', out'⟩ := lg'
  simp only [settled, Logger.mk.injEq] at h ⊢
  simpa using h

theorem Logger.drops_congr (h : lg'.settled = lg.settled) {level : Int} :
    lg'.Drops level ↔ lg.Drops level := by
  rw [eq_of_settled h]
  rfl

theorem Logger.bridges_congr (h : lg'.settled = lg.settled) :
    lg'.Bridges host ↔ lg.Bridges host := by
  rw [eq_of_settled h]
  rfl

theorem Loggers.at_of_some (h : loggers key = some lg) : loggers.at key = lg := by
  rw [Loggers.at, h, Option.getD_some]

theorem Loggers.get_of_some (h : loggers key = some lg) (ewtsNgen : Bool) :
    loggers.get key ewtsNgen = loggers := by
  rw [Loggers.get, h]

theorem Loggers.get_of_none (h : loggers key = none) (ewtsNgen : Bool) :
    loggers.get key ewtsNgen = Function.update loggers key (some (.new key ewtsNgen)) := by
  rw [Loggers.get, h]

/-- There is a logger of the key. -/
def Loggers.Present (loggers : Loggers) (key : Text) : Prop := ∃ lg, loggers key = some lg

/-- It has read the environment. -/
def Loggers.Ready (loggers : Loggers) (key : Text) : Prop :=
  ∃ lg, loggers key = some lg ∧ lg.initialized = true

/-- The loggers of a map stay, with their flags and with what they have settled. -/
def Loggers.Grows (loggers loggers' : Loggers) : Prop :=
  ∀ key lg, loggers key = some lg → ∃ lg', loggers' key = some lg' ∧ lg'.useNgen = lg.useNgen ∧
    (lg.initialized = true → lg'.settled = lg.settled)

theorem Loggers.grows_refl (loggers : Loggers) : loggers.Grows loggers :=
  fun _ lg h => ⟨lg, h, rfl, fun _ => rfl⟩

/-- A new logger. -/
theorem Loggers.grows_new (h : loggers key = none) (lg : Logger) :
    loggers.Grows (Function.update loggers key (some lg)) := by
  intro other lg' hother
  have hne : other ≠ key := by
    rintro rfl
    rw [h] at hother
    cases hother
  exact ⟨lg', by rw [Function.update_of_ne hne, hother], rfl, fun _ => rfl⟩

/-- A logger that is written back. -/
theorem Loggers.grows_set (h : loggers key = some lg) (huse : lg'.useNgen = lg.useNgen)
    (hsettled : lg.initialized = true → lg'.settled = lg.settled) :
    loggers.Grows (Function.update loggers key (some lg')) := by
  intro other lg'' hother
  by_cases hkey : other = key
  · rw [hkey, h] at hother
    cases hother
    exact ⟨lg', by rw [hkey, Function.update_self], huse, hsettled⟩
  · exact ⟨lg'', by rw [Function.update_of_ne hkey, hother], rfl, fun _ => rfl⟩

section Grows

variable {loggers' : Loggers} (h : loggers.Grows loggers')

include h

theorem Loggers.Present.mono (hkey : loggers.Present key) : loggers'.Present key := by
  obtain ⟨lg, hlg⟩ := hkey
  obtain ⟨lg', hlg', _⟩ := h key lg hlg
  exact ⟨lg', hlg'⟩

theorem Loggers.Ready.mono (hkey : loggers.Ready key) : loggers'.Ready key := by
  obtain ⟨lg, hlg, hinit⟩ := hkey
  obtain ⟨lg', hlg', _, hsettled⟩ := h key lg hlg
  refine ⟨lg', hlg', ?_⟩
  rw [Logger.eq_of_settled (hsettled hinit)]
  exact hinit

/-- What a ready logger decides stays as it is. -/
theorem Loggers.Ready.settled (hkey : loggers.Ready key) :
    (loggers'.at key).settled = (loggers.at key).settled := by
  obtain ⟨lg, hlg, hinit⟩ := hkey
  obtain ⟨lg', hlg', _, hsettled⟩ := h key lg hlg
  rw [Loggers.at_of_some hlg, Loggers.at_of_some hlg', hsettled hinit]

end Grows

end Loggers

/-! ## What a thread can do -/

section Moves

variable {τ : Type} (host : Host)

/-- What a method that does not log reads and returns. -/
def Method.ask (lg : Logger) : Method → Option Answer
  | log _ none => some .done
  | log _ (some _) => none
  | isLoggingEnabled => some (.enabled lg.enabled)
  | getLogLevel => some (.level lg.level)

/-- A thread that has nothing to do or waits for a mutex. -/
def Thread.Blocked (s : Shared τ) (θ : Thread) : Prop :=
  match θ.position with
  | .outside => ∀ call ∈ θ.todo.head?, call.lookup θ.current ≠ none ∧ s.registryMutex ≠ none
  | .use key method => (∀ level, method ≠ .log level none) ∧ s.initMutex key ≠ none
  | .waiting key _ _ _ => s.logMutex key ≠ none
  | _ => False

/-- The steps of a thread, case by case. -/
inductive Thread.Move (s : Shared τ) (t : τ) (now : Timestamp) :
    Thread → Shared τ × Thread → Prop
  | stay {θ} : θ.Blocked s → Move s t now θ (s, θ)
  | enter {call current todo answers key ewtsNgen} :
      call.lookup current = some (key, ewtsNgen) → s.registryMutex = none →
      Move s t now ⟨.outside, current, call :: todo, answers⟩
        ({ s with registryMutex := some t },
          ⟨.find key ewtsNgen call.method, current, todo, answers⟩)
  | direct {method key todo answers} :
      Move s t now ⟨.outside, some key, .current method :: todo, answers⟩
        (s, ⟨.use key method, some key, todo, answers⟩)
  | found {key ewtsNgen method current todo answers} : s.loggers.Present key →
      Move s t now ⟨.find key ewtsNgen method, current, todo, answers⟩
        (s, ⟨.unlock key method, current, todo, answers⟩)
  | missing {key ewtsNgen method current todo answers} : s.loggers key = none →
      Move s t now ⟨.find key ewtsNgen method, current, todo, answers⟩
        (s, ⟨.create key ewtsNgen method, current, todo, answers⟩)
  | create {key ewtsNgen method current todo answers} :
      Move s t now ⟨.create key ewtsNgen method, current, todo, answers⟩
        (s.setLogger key (.new key ewtsNgen), ⟨.unlock key method, current, todo, answers⟩)
  | select {key current todo answers} :
      Move s t now ⟨.unlock key none, current, todo, answers⟩
        ({ s with registryMutex := none }, ⟨.outside, some key, todo, answers ++ [.done]⟩)
  | hold {key method current todo answers} :
      Move s t now ⟨.unlock key (some method), current, todo, answers⟩
        ({ s with registryMutex := none }, ⟨.use key method, current, todo, answers⟩)
  | nothing {key level current todo answers} :
      Move s t now ⟨.use key (.log level none), current, todo, answers⟩
        (s, ⟨.outside, current, todo, answers ++ [.done]⟩)
  | begin {key method current todo answers} : (∀ level, method ≠ .log level none) →
      s.initMutex key = none →
      Move s t now ⟨.use key method, current, todo, answers⟩
        ({ s with initMutex := Function.update s.initMutex key (some t) },
          ⟨.check key method, current, todo, answers⟩)
  | again {key method current todo answers} : (s.loggers.at key).initialized = true →
      Move s t now ⟨.check key method, current, todo, answers⟩
        (s, ⟨.leave key method, current, todo, answers⟩)
  | initialise {key method current todo answers} : (s.loggers.at key).initialized = false →
      Move s t now ⟨.check key method, current, todo, answers⟩
        ({ s.setLogger key ((s.loggers.at key).initOnce host.env) with mpiRank := -1 },
          ⟨.rank key method, current, todo, answers⟩)
  | rank {key method current todo answers} :
      Move s t now ⟨.rank key method, current, todo, answers⟩
        ({ s with mpiRank := (readRank host.env).getD s.mpiRank },
          ⟨.head key method, current, todo, answers⟩)
  | ranked {key method current todo answers} : 0 ≤ s.mpiRank →
      Move s t now ⟨.head key method, current, todo, answers⟩
        (s, ⟨.named key method, current, todo, answers⟩)
  | head {key method current todo answers} : s.mpiRank < 0 →
      Move s t now ⟨.head key method, current, todo, answers⟩
        (s, ⟨.announce key method
          (notices host.env host.linked plainLabel (s.loggers.at key)), current, todo, answers⟩)
  | named {key method current todo answers} :
      Move s t now ⟨.named key method, current, todo, answers⟩
        (s, ⟨.announce key method
          (notices host.env host.linked (rankLabel s.mpiRank) (s.loggers.at key)), current, todo,
            answers⟩)
  | notice {key method notice rest current todo answers} :
      Move s t now ⟨.announce key method (notice :: rest), current, todo, answers⟩
        (s.print none (.notice key notice), ⟨.announce key method rest, current, todo, answers⟩)
  | announced {key method current todo answers} :
      Move s t now ⟨.announce key method [], current, todo, answers⟩
        (s, ⟨.leave key method, current, todo, answers⟩)
  | leave {key method current todo answers} :
      Move s t now ⟨.leave key method, current, todo, answers⟩
        ({ s with initMutex := Function.update s.initMutex key none },
          ⟨.act key method, current, todo, answers⟩)
  | query {key method current todo answers answer} :
      method.ask (s.loggers.at key) = some answer →
      Move s t now ⟨.act key method, current, todo, answers⟩
        (s, ⟨.outside, current, todo, answers ++ [answer]⟩)
  | drop {key level message current todo answers} : (s.loggers.at key).Drops level →
      Move s t now ⟨.act key (.log level (some message)), current, todo, answers⟩
        (s, ⟨.outside, current, todo, answers ++ [.done]⟩)
  | pass {key level message current todo answers} : ¬ (s.loggers.at key).Drops level →
      Move s t now ⟨.act key (.log level (some message)), current, todo, answers⟩
        (s, ⟨.route key level message, current, todo, answers⟩)
  | bridge {key level message current todo answers} : (s.loggers.at key).Bridges host →
      Move s t now ⟨.route key level message, current, todo, answers⟩
        ({ s with
            bridged := s.bridged ++ [(cStr (s.loggers.at key).ewtsId, level, cStr message)] },
          ⟨.outside, current, todo, answers ++ [.done]⟩)
  | alone {key level message current todo answers} : ¬ (s.loggers.at key).Bridges host →
      Move s t now ⟨.route key level message, current, todo, answers⟩
        (s, ⟨.waiting key level message now, current, todo, answers⟩)
  | acquire {key level message read current todo answers} : s.logMutex key = none →
      Move s t now ⟨.waiting key level message read, current, todo, answers⟩
        ({ s with logMutex := Function.update s.logMutex key (some t) },
          ⟨.opening key level message read, current, todo, answers⟩)
  | throws {key level message read current todo answers} :
      (s.loggers.at key).openStandaloneFile { host with now := now } = none →
      Move s t now ⟨.opening key level message read, current, todo, answers⟩
        ({ s with logMutex := Function.update s.logMutex key none },
          ⟨.outside, current, todo, answers ++ [.filesystemError]⟩)
  | opened {key level message read current todo answers lg} :
      (s.loggers.at key).openStandaloneFile { host with now := now } = some lg →
      Move s t now ⟨.opening key level message read, current, todo, answers⟩
        (s.setLogger key lg,
          ⟨.write key lg.out (linePieces read lg.ewtsIdPadded level message), current, todo,
            answers⟩)
  | insert {key sink piece rest current todo answers} :
      Move s t now ⟨.write key sink (piece :: rest), current, todo, answers⟩
        (s.print sink (.piece key piece), ⟨.write key sink rest, current, todo, answers⟩)
  | release {key sink current todo answers} :
      Move s t now ⟨.write key sink [], current, todo, answers⟩
        ({ s with logMutex := Function.update s.logMutex key none },
          ⟨.outside, current, todo, answers ++ [.done]⟩)

/-- A call needs no registry when it is about the current logger. -/
theorem Call.lookup_eq_none {call : Call} {current : Option Text}
    (h : call.lookup current = none) :
    ∃ key method, current = some key ∧ call = .current method := by
  cases call with
  | current method =>
    cases current with
    | none => cases h
    | some key => exact ⟨key, method, rfl, rfl⟩
  | _ => cases h

section StepMove

variable (s : Shared τ) (t : τ) (now : Timestamp) (current : Option Text) (todo : List Call)
  (answers : List Answer) (key : Text)

/-- A call begins with its lookup, or with the current logger. -/
theorem Thread.outside_move : Thread.Move host s t now ⟨.outside, current, todo, answers⟩
    (Thread.step host s t now ⟨.outside, current, todo, answers⟩) := by
  cases todo with
  | nil =>
    refine .stay fun call hcall => ?_
    cases hcall
  | cons call todo =>
    cases hlookup : call.lookup current with
    | none =>
      obtain ⟨key, method, rfl, rfl⟩ := Call.lookup_eq_none hlookup
      exact .direct
    | some l =>
      cases hfree : s.registryMutex with
      | none =>
        simp only [Thread.step, hlookup, hfree]
        exact .enter hlookup hfree
      | some u =>
        simp only [Thread.step, hlookup, hfree]
        refine .stay fun call' hcall => ?_
        cases hcall
        simp [hlookup, hfree]

/-- The lookup finds a logger or creates one. -/
theorem Thread.find_move (ewtsNgen : Bool) (method : Option Method) :
    Thread.Move host s t now ⟨.find key ewtsNgen method, current, todo, answers⟩
      (Thread.step host s t now ⟨.find key ewtsNgen method, current, todo, answers⟩) := by
  cases hkey : s.loggers key with
  | none =>
    simp only [Thread.step, hkey]
    exact .missing hkey
  | some lg =>
    simp only [Thread.step, hkey]
    exact .found ⟨lg, hkey⟩

/-- A method begins with the first use, unless there is nothing to log. -/
theorem Thread.use_move (method : Method) :
    Thread.Move host s t now ⟨.use key method, current, todo, answers⟩
      (Thread.step host s t now ⟨.use key method, current, todo, answers⟩) := by
  by_cases hnothing : ∃ level, method = .log level none
  · obtain ⟨level, rfl⟩ := hnothing
    exact .nothing
  · rw [not_exists] at hnothing
    cases hfree : s.initMutex key with
    | none =>
      have hstep : Thread.step host s t now ⟨.use key method, current, todo, answers⟩ =
          ({ s with initMutex := Function.update s.initMutex key (some t) },
            ⟨.check key method, current, todo, answers⟩) := by
        unfold Thread.step
        simp only [hfree]
      rw [hstep]
      exact .begin hnothing hfree
    | some u =>
      have hstep : Thread.step host s t now ⟨.use key method, current, todo, answers⟩ =
          (s, ⟨.use key method, current, todo, answers⟩) := by
        unfold Thread.step
        simp only [hfree]
      rw [hstep]
      refine .stay ⟨hnothing, ?_⟩
      rw [hfree]
      exact Option.some_ne_none u

/-- After the first use a method answers, or its message is filtered. -/
theorem Thread.act_move (method : Method) :
    Thread.Move host s t now ⟨.act key method, current, todo, answers⟩
      (Thread.step host s t now ⟨.act key method, current, todo, answers⟩) := by
  cases method with
  | isLoggingEnabled | getLogLevel => exact .query rfl
  | log level message =>
    cases message with
    | none => exact .query rfl
    | some message =>
      simp only [Thread.step]
      split
      · rename_i h
        exact .drop h
      · rename_i h
        exact .pass h

/-- A message that stays in the process waits for the stream of its logger. -/
theorem Thread.waiting_move (level : Int) (message : Text) (read : Timestamp) :
    Thread.Move host s t now ⟨.waiting key level message read, current, todo, answers⟩
      (Thread.step host s t now ⟨.waiting key level message read, current, todo, answers⟩) := by
  cases hfree : s.logMutex key with
  | none =>
    simp only [Thread.step, hfree]
    exact .acquire hfree
  | some u =>
    simp only [Thread.step, hfree]
    refine .stay ?_
    simp [Thread.Blocked, hfree]

/-- Opening the file succeeds or throws. -/
theorem Thread.opening_move (level : Int) (message : Text) (read : Timestamp) :
    Thread.Move host s t now ⟨.opening key level message read, current, todo, answers⟩
      (Thread.step host s t now ⟨.opening key level message read, current, todo, answers⟩) := by
  cases hopen : (s.loggers.at key).openStandaloneFile { host with now := now } with
  | none =>
    simp only [Thread.step, hopen]
    exact .throws hopen
  | some lg =>
    simp only [Thread.step, hopen]
    exact .opened hopen

end StepMove

/-- The step function makes one of these moves. -/
theorem Thread.step_move (s : Shared τ) (t : τ) (now : Timestamp) (θ : Thread) :
    Thread.Move host s t now θ (θ.step host s t now) := by
  obtain ⟨position, current, todo, answers⟩ := θ
  cases position with
  | outside => exact outside_move ..
  | find key ewtsNgen method => exact find_move ..
  | create key ewtsNgen method => exact .create
  | unlock key method =>
    cases method with
    | none => exact .select
    | some method => exact .hold
  | use key method => exact use_move ..
  | check key method =>
    simp only [Thread.step]
    split
    · rename_i h
      exact .again h
    · rename_i h
      exact .initialise (Bool.eq_false_iff.mpr h)
  | rank key method => exact .rank
  | head key method =>
    simp only [Thread.step]
    split
    · rename_i h
      exact .ranked h
    · rename_i h
      exact .head (Int.not_le.mp h)
  | named key method => exact .named
  | announce key method rest =>
    cases rest with
    | nil => exact .announced
    | cons notice rest => exact .notice
  | leave key method => exact .leave
  | act key method => exact act_move ..
  | route key level message =>
    simp only [Thread.step]
    split
    · rename_i h
      exact .bridge h
    · rename_i h
      exact .alone h
  | waiting key level message read => exact waiting_move ..
  | opening key level message read => exact opening_move ..
  | write key sink rest =>
    cases rest with
    | nil => exact .release
    | cons piece rest => exact .insert

end Moves

/-! ## What holds between two steps -/

section Invariants

variable {τ : Type} {host : Host} {loggers loggers' : Loggers}

/-- The places that `g_registry_mtx` guards. -/
def Thread.InRegistry (θ : Thread) : Prop :=
  match θ.position with
  | .find .. | .create .. | .unlock .. => True
  | _ => False

/-- The places that the `init_mtx_` of a logger guards. -/
def Thread.InInit (key : Text) (θ : Thread) : Prop :=
  match θ.position with
  | .check own _ | .rank own _ | .head own _ | .named own _ | .announce own _ _ | .leave own _ =>
    own = key
  | _ => False

/-- The places that its `log_mtx_` guards. -/
def Thread.InLog (key : Text) (θ : Thread) : Prop :=
  match θ.position with
  | .opening own _ _ _ | .write own _ _ => own = key
  | _ => False

/-- What a thread knows about the loggers at its position. -/
def Position.Sound (host : Host) (loggers : Loggers) : Position → Prop
  | .outside | .find .. | .write .. => True
  | .create key _ _ => loggers key = none
  | .unlock key _ | .use key _ | .check key _ => loggers.Present key
  | .rank key _ | .head key _ | .named key _ | .announce key _ _ | .leave key _ | .act key _ =>
    loggers.Ready key
  | .route key level _ => loggers.Ready key ∧ ¬ (loggers.at key).Drops level
  | .waiting key level _ _ | .opening key level _ _ =>
    loggers.Ready key ∧ ¬ (loggers.at key).Drops level ∧ ¬ (loggers.at key).Bridges host

/-- Where it stands, and that its current logger is there. -/
structure Thread.Sound (host : Host) (loggers : Loggers) (θ : Thread) : Prop where
  position : θ.position.Sound host loggers
  current : ∀ key ∈ θ.current, loggers.Present key

/-- What holds between two steps. -/
structure World.Invariant (host : Host) (w : World τ) : Prop where
  registry : Guards Thread.InRegistry w.shared.registryMutex w.threads
  init : ∀ key, Guards (Thread.InInit key) (w.shared.initMutex key) w.threads
  log : ∀ key, Guards (Thread.InLog key) (w.shared.logMutex key) w.threads
  sound : ∀ t, (w.threads t).Sound host w.shared.loggers

/-- What a thread knows stays true while others act; that a logger is missing does so while
nobody else is in the registry. -/
theorem Thread.Sound.mono {θ : Thread} (h : θ.Sound host loggers) (hgrows : loggers.Grows loggers')
    (hnew : (∀ key, loggers key = none → loggers' key = none) ∨ ¬ θ.InRegistry) :
    θ.Sound host loggers' := by
  obtain ⟨hposition, hcurrent⟩ := h
  refine ⟨?_, fun key hkey => (hcurrent key hkey).mono hgrows⟩
  obtain ⟨position, current, todo, answers⟩ := θ
  cases position with
  | outside | find | write => trivial
  | create key ewtsNgen method => exact hnew.resolve_right (not_not_intro trivial) key hposition
  | unlock | use | check => exact Loggers.Present.mono hgrows hposition
  | rank | head | named | announce | leave | act => exact Loggers.Ready.mono hgrows hposition
  | route =>
    obtain ⟨hready, hdrops⟩ := hposition
    refine ⟨hready.mono hgrows, ?_⟩
    rwa [Logger.drops_congr (hready.settled hgrows)]
  | waiting | opening =>
    obtain ⟨hready, hdrops, halone⟩ := hposition
    refine ⟨hready.mono hgrows, ?_, ?_⟩
    · rwa [Logger.drops_congr (hready.settled hgrows)]
    · rwa [Logger.bridges_congr (hready.settled hgrows)]

/-- What a step leaves. -/
structure Thread.StepSound (host : Host) (s : Shared τ) (θ : Thread) (r : Shared τ × Thread) :
    Prop where
  grows : s.loggers.Grows r.1.loggers
  new : (∀ key, s.loggers key = none → r.1.loggers key = none) ∨ θ.InRegistry
  sound : r.2.Sound host r.1.loggers

variable {s : Shared τ} {t : τ} {now : Timestamp} {θ : Thread} {r : Shared τ × Thread}

/-- A step that leaves the loggers alone. -/
theorem Thread.StepSound.of_eq (heq : r.1.loggers = s.loggers) (hsound : r.2.Sound host s.loggers) :
    Thread.StepSound host s θ r := by
  refine ⟨?_, Or.inl fun key hkey => ?_, ?_⟩
  · rw [heq]
    exact s.loggers.grows_refl
  · rwa [heq]
  · rwa [heq]

/-- A step that writes to a logger. -/
theorem Thread.StepSound.of_set {key : Text} {lg lg' : Logger} (hkey : s.loggers key = some lg)
    (huse : lg'.useNgen = lg.useNgen)
    (hsettled : lg.initialized = true → lg'.settled = lg.settled)
    (heq : r.1.loggers = Function.update s.loggers key (some lg'))
    (hposition : r.2.position.Sound host (Function.update s.loggers key (some lg')))
    (hcurrent : ∀ key ∈ r.2.current, s.loggers.Present key) : Thread.StepSound host s θ r := by
  have hgrows := Loggers.grows_set hkey huse hsettled
  refine ⟨heq ▸ hgrows, Or.inl fun other hother => ?_, ?_⟩
  · have hne : other ≠ key := by
      rintro rfl
      rw [hkey] at hother
      cases hother
    rw [heq, Function.update_of_ne hne, hother]
  · rw [heq]
    exact ⟨hposition, fun other hother => (hcurrent other hother).mono hgrows⟩

/-- What a thread knows is true after its step. -/
theorem Thread.Move.stepSound (hmove : Thread.Move host s t now θ r) (h : θ.Sound host s.loggers) :
    Thread.StepSound host s θ r := by
  obtain ⟨hposition, hcurrent⟩ := h
  cases hmove with
  | stay => exact .of_eq rfl ⟨hposition, hcurrent⟩
  | enter | nothing | query | drop | bridge | throws | insert | release =>
    exact .of_eq rfl ⟨trivial, hcurrent⟩
  | direct => exact .of_eq rfl ⟨hcurrent _ rfl, hcurrent⟩
  | found hpresent => exact .of_eq rfl ⟨hpresent, hcurrent⟩
  | missing hnone => exact .of_eq rfl ⟨hnone, hcurrent⟩
  | @create key ewtsNgen =>
    have hgrows := Loggers.grows_new hposition (.new key ewtsNgen)
    refine ⟨hgrows, Or.inr trivial, ⟨_, Function.update_self ..⟩, fun other hother => ?_⟩
    exact (hcurrent other hother).mono hgrows
  | @select key =>
    refine .of_eq rfl ⟨trivial, fun other hother => ?_⟩
    cases hother
    exact hposition
  | hold | begin | rank | ranked | head | named | notice | announced | leave | acquire =>
    exact .of_eq rfl ⟨hposition, hcurrent⟩
  | @again key _ _ _ _ hinit =>
    obtain ⟨lg, hlg⟩ := hposition
    rw [Loggers.at_of_some hlg] at hinit
    exact .of_eq rfl ⟨⟨lg, hlg, hinit⟩, hcurrent⟩
  | @initialise key _ _ _ _ hinit =>
    obtain ⟨lg, hlg⟩ := hposition
    rw [Loggers.at_of_some hlg] at hinit ⊢
    refine .of_set hlg Logger.useNgen_initOnce (fun htrue => ?_) rfl ?_ hcurrent
    · rw [hinit] at htrue
      cases htrue
    · exact ⟨_, Function.update_self .., Logger.initialized_initOnce⟩
  | pass hpasses => exact .of_eq rfl ⟨⟨hposition, hpasses⟩, hcurrent⟩
  | alone halone => exact .of_eq rfl ⟨⟨hposition.1, hposition.2, halone⟩, hcurrent⟩
  | opened hopen =>
    obtain ⟨lg, hlg, hinit⟩ := hposition.1
    rw [Loggers.at_of_some hlg] at hopen
    have hsettled := Logger.openStandaloneFile_settled hopen
    refine .of_set hlg ?_ (fun _ => hsettled) rfl trivial hcurrent
    rw [Logger.eq_of_settled hsettled]

/-- Nobody has done anything. -/
theorem World.Invariant.start (programs : τ → List Call) :
    (World.start programs).Invariant host where
  registry t := iff_of_false id (by simp [World.start])
  init key t := iff_of_false id (by simp [World.start])
  log key t := iff_of_false id (by simp [World.start])
  sound t := ⟨trivial, fun _ h => by cases h⟩

variable [DecidableEq τ]

/-- Every step keeps the locks in order. -/
theorem Thread.Move.guards {w : World τ} (hmove : Thread.Move host w.shared t now (w.threads t) r)
    (h : w.Invariant host) :
    Guards Thread.InRegistry r.1.registryMutex (Function.update w.threads t r.2) ∧
      (∀ key, Guards (Thread.InInit key) (r.1.initMutex key) (Function.update w.threads t r.2)) ∧
      ∀ key, Guards (Thread.InLog key) (r.1.logMutex key) (Function.update w.threads t r.2) := by
  generalize hθ : w.threads t = θ at hmove
  have registry {p : Thread} (hp : p.InRegistry ↔ θ.InRegistry) :
      Guards Thread.InRegistry w.shared.registryMutex (Function.update w.threads t p) :=
    h.registry.keep (hθ ▸ hp)
  have init {p : Thread} (hp : ∀ key, p.InInit key ↔ θ.InInit key) (key : Text) :
      Guards (Thread.InInit key) (w.shared.initMutex key) (Function.update w.threads t p) :=
    (h.init key).keep (hθ ▸ hp key)
  have log {p : Thread} (hp : ∀ key, p.InLog key ↔ θ.InLog key) (key : Text) :
      Guards (Thread.InLog key) (w.shared.logMutex key) (Function.update w.threads t p) :=
    (h.log key).keep (hθ ▸ hp key)
  cases hmove with
  | stay | direct | found | missing | create | nothing | again | initialise | rank | ranked | head |
      named | notice | announced | query | drop | pass | bridge | alone | opened | insert =>
    exact ⟨registry Iff.rfl, init fun _ => Iff.rfl, log fun _ => Iff.rfl⟩
  | enter _ hfree =>
    have hregistry := h.registry
    rw [hfree] at hregistry
    exact ⟨hregistry.acquire trivial, init fun _ => Iff.rfl, log fun _ => Iff.rfl⟩
  | select | hold =>
    refine ⟨h.registry.release ?_ id, init fun _ => Iff.rfl, log fun _ => Iff.rfl⟩
    rw [hθ]
    trivial
  | @begin key _ _ _ _ _ hfree =>
    refine ⟨registry Iff.rfl, Guards.family h.init ?_ fun other hne => ?_,
      log fun _ => Iff.rfl⟩
    · have hinit := h.init key
      rw [hfree] at hinit
      exact hinit.acquire rfl
    · rw [hθ]
      exact iff_of_false (Ne.symm hne) id
  | leave =>
    refine ⟨registry Iff.rfl, Guards.family h.init ?_ fun other hne => ?_,
      log fun _ => Iff.rfl⟩
    · refine (h.init _).release ?_ id
      rw [hθ]
      rfl
    · rw [hθ]
      exact iff_of_false id (Ne.symm hne)
  | @acquire key _ _ _ _ _ _ hfree =>
    refine ⟨registry Iff.rfl, init fun _ => Iff.rfl,
      Guards.family h.log ?_ fun other hne => ?_⟩
    · have hlog := h.log key
      rw [hfree] at hlog
      exact hlog.acquire rfl
    · rw [hθ]
      exact iff_of_false (Ne.symm hne) id
  | throws | release =>
    refine ⟨registry Iff.rfl, init fun _ => Iff.rfl,
      Guards.family h.log ?_ fun other hne => ?_⟩
    · refine (h.log _).release ?_ id
      rw [hθ]
      rfl
    · rw [hθ]
      exact iff_of_false id (Ne.symm hne)

/-- Every step keeps what holds between two steps. -/
theorem World.Invariant.step {w : World τ} (h : w.Invariant host) (turn : τ × Timestamp) :
    (w.step host turn).Invariant host := by
  obtain ⟨t, now⟩ := turn
  have hmove := Thread.step_move host w.shared t now (w.threads t)
  obtain ⟨hregistry, hinit, hlog⟩ := hmove.guards h
  have hsound := hmove.stepSound (h.sound t)
  refine ⟨hregistry, hinit, hlog, fun u => ?_⟩
  by_cases hu : u = t
  · simp only [World.step, hu, Function.update_self]
    exact hsound.sound
  · simp only [World.step, Function.update_of_ne hu]
    exact (h.sound u).mono hsound.grows (hsound.new.imp_right (h.registry.outside · hu))

end Invariants

end Ewts.Cpp
