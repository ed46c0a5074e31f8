import Ewts.Core.Lock
import Ewts.Core.Refinement
import Ewts.Runtime.C.Threads

/-!
# Threads and the states of the C module

Callers see the registry as a state of each key, which has read the environment. A step of a
thread is one of the moves of `Thread.Move`. Between two moves each mutex is held by the thread
at a place that it guards, no two states share an id, and the list is as the place of each thread
expects it; other threads only make it grow, and leave what is settled.
-/

namespace Ewts.C

/-! ## States by key -/

section Views

variable {env : Environ} {loggers : List LoggerState} {st : LoggerState} {key : Text}

/-- A registry as its callers see it: a state of each key, as it is once it has read the
environment. A key without a state stands for one that nobody has touched. -/
def view (env : Environ) (loggers : List LoggerState) (key : Text) : LoggerState :=
  initLoggerState env (stateOf loggers key)

/-- `EwtsInit` can only turn the route flag on. -/
def LoggerState.upgrade (st : LoggerState) (ewtsNgen : Bool) : LoggerState :=
  { st with useNgen := st.useNgen || ewtsNgen }

@[simp] theorem LoggerState.upgrade_false : st.upgrade false = st := by
  rw [upgrade, Bool.or_false]

@[simp] theorem initialized_initLoggerState : (initLoggerState env st).initialized = true := by
  unfold initLoggerState
  split
  · assumption
  · rfl

theorem initLoggerState_of_initialized (h : st.initialized = true) :
    initLoggerState env st = st := by
  rw [initLoggerState, if_pos h]

/-- The route flag plays no part in reading the environment. -/
theorem initLoggerState_upgrade (ewtsNgen : Bool) :
    initLoggerState env (st.upgrade ewtsNgen) = (initLoggerState env st).upgrade ewtsNgen := by
  by_cases h : st.initialized = true
  · rw [initLoggerState_of_initialized h]
    exact initLoggerState_of_initialized h
  · have h' : ¬ (st.upgrade ewtsNgen).initialized = true := h
    rw [initLoggerState, if_neg h', initLoggerState, if_neg h]
    rfl

theorem mem_ids : key ∈ ids loggers ↔ ∃ st ∈ loggers, st.ewtsId = key := by
  rw [ids, List.mem_map]

/-- The state of a key that is there. -/
theorem ewtsId_stateOf (h : key ∈ ids loggers) : (stateOf loggers key).ewtsId = key := by
  obtain ⟨st, hst, hid⟩ := mem_ids.mp h
  cases hfind : loggers.find? fun st => st.ewtsId = key with
  | none => exact absurd hid (by simpa using List.find?_eq_none.mp hfind st hst)
  | some st =>
    rw [stateOf, hfind]
    simpa using List.find?_some hfind

theorem stateOf_of_not_mem (h : key ∉ ids loggers) : stateOf loggers key = .alloc key false := by
  have hfind : loggers.find? (fun st => st.ewtsId = key) = none := by
    rw [List.find?_eq_none]
    intro st hst
    simpa using fun hid => h (mem_ids.mpr ⟨st, hst, hid⟩)
  rw [stateOf, hfind]
  rfl

/-- A state in front of the list. -/
theorem stateOf_cons :
    stateOf (st :: loggers) = Function.update (stateOf loggers) st.ewtsId st := by
  ext1 key
  by_cases h : st.ewtsId = key
  · rw [← h, Function.update_self, stateOf, List.find?_cons, decide_eq_true rfl]
    rfl
  · rw [Function.update_of_ne (Ne.symm h), stateOf, List.find?_cons, decide_eq_false h]
    rfl

/-- A state that is written back. -/
theorem stateOf_storeState (h : st.ewtsId ∈ ids loggers) :
    stateOf (storeState st loggers) = Function.update (stateOf loggers) st.ewtsId st := by
  induction loggers with
  | nil => cases h
  | cons s loggers ih =>
    rw [storeState]
    by_cases hs : s.ewtsId = st.ewtsId
    · rw [if_pos hs, stateOf_cons, stateOf_cons, hs, Function.update_idem]
    · have hmem : st.ewtsId ∈ ids loggers := by
        rw [ids, List.map_cons] at h
        exact (List.mem_cons.mp h).resolve_left (Ne.symm hs)
      rw [if_neg hs, stateOf_cons, ih hmem, stateOf_cons, Function.update_comm (Ne.symm hs)]

theorem view_eq_comp (env : Environ) (loggers : List LoggerState) :
    view env loggers = initLoggerState env ∘ stateOf loggers := rfl

theorem view_storeState (h : st.ewtsId ∈ ids loggers) :
    view env (storeState st loggers) =
      Function.update (view env loggers) st.ewtsId (initLoggerState env st) := by
  rw [view_eq_comp, stateOf_storeState h, Function.comp_update, ← view_eq_comp]

/-- A new state is the one that stood for its key, up to the route flag. -/
theorem view_alloc (hkey : key.take 63 = key) (h : key ∉ ids loggers) (ewtsNgen : Bool) :
    view env (.alloc key ewtsNgen :: loggers) =
      Function.update (view env loggers) key ((view env loggers key).upgrade ewtsNgen) := by
  have hid : (LoggerState.alloc key ewtsNgen).ewtsId = key := hkey
  have hnew : (LoggerState.alloc key ewtsNgen) = (LoggerState.alloc key false).upgrade ewtsNgen :=
    rfl
  rw [view_eq_comp, stateOf_cons, Function.comp_update, ← view_eq_comp, hid, view,
    stateOf_of_not_mem h, ← initLoggerState_upgrade, ← hnew]

/-- A lookup returns the state of its key, with the flag of the call. -/
theorem getLoggerState_fst (env : Environ) (loggers : List LoggerState) (ewtsId : Text)
    (ewtsNgen : Bool) : (getLoggerState env loggers ewtsId ewtsNgen).1 =
      (view env loggers (loggerKey ewtsId)).upgrade ewtsNgen := by
  rw [view, ← initLoggerState_upgrade, getLoggerState, stateOf]
  split
  · rename_i st hfind
    rw [hfind]
    rfl
  · rename_i hfind
    rw [hfind]
    rfl

/-- A view has read the environment. -/
theorem initLoggerState_view_upgrade (ewtsNgen : Bool) :
    initLoggerState env ((view env loggers key).upgrade ewtsNgen) =
      (view env loggers key).upgrade ewtsNgen :=
  initLoggerState_of_initialized initialized_initLoggerState

/-- It changes this state and no other one. -/
theorem view_getLoggerState (env : Environ) (loggers : List LoggerState) (ewtsId : Text)
    (ewtsNgen : Bool) : view env (getLoggerState env loggers ewtsId ewtsNgen).2 =
      Function.update (view env loggers) (loggerKey ewtsId)
        ((view env loggers (loggerKey ewtsId)).upgrade ewtsNgen) := by
  have hfst := getLoggerState_fst env loggers ewtsId ewtsNgen
  rw [getLoggerState] at hfst ⊢
  split
  · rename_i st hfind
    have hmem : loggerKey ewtsId ∈ ids loggers :=
      mem_ids.mpr ⟨st, List.mem_of_find?_eq_some hfind, by simpa using List.find?_some hfind⟩
    have hid : ((view env loggers (loggerKey ewtsId)).upgrade ewtsNgen).ewtsId =
        loggerKey ewtsId := ewtsId_initLoggerState.trans (ewtsId_stateOf hmem)
    simp only [hfind] at hfst
    rw [hfst, view_storeState (by rwa [hid]), hid, initLoggerState_view_upgrade]
  · rename_i hfind
    simp only [hfind] at hfst
    have hid : (LoggerState.alloc (loggerKey ewtsId) ewtsNgen).ewtsId = loggerKey ewtsId :=
      take_loggerKey ewtsId
    rw [view_eq_comp, stateOf_cons, Function.comp_update, ← view_eq_comp, ewtsId_initLoggerState,
      hid, hfst, initLoggerState_view_upgrade]

/-- The key is in the list afterwards. -/
theorem mem_ids_getLoggerState (env : Environ) (loggers : List LoggerState) (ewtsId : Text)
    (ewtsNgen : Bool) : loggerKey ewtsId ∈ ids (getLoggerState env loggers ewtsId ewtsNgen).2 := by
  rw [getLoggerState]
  split
  · rename_i st hfind
    rw [ids_storeState]
    exact mem_ids.mpr ⟨st, List.mem_of_find?_eq_some hfind, by simpa using List.find?_some hfind⟩
  · rw [ids, List.map_cons, ewtsId_initLoggerState]
    have hid : (LoggerState.alloc (loggerKey ewtsId) ewtsNgen).ewtsId = loggerKey ewtsId :=
      take_loggerKey ewtsId
    rw [hid]
    exact List.mem_cons_self ..

end Views

/-! ## What a thread can do -/

section Moves

variable {τ : Type} (env : Environ) (linked : Bool) (opens : Text → Bool)

/-- A thread that has nothing to do or waits for a mutex. -/
def Thread.Blocked (s : Shared τ) (θ : Thread) : Prop :=
  match θ.position with
  | .outside => θ.todo = [] ∨ s.registryMutex ≠ none
  | .waiting .. => s.writeMutex ≠ none
  | _ => False

/-- The filter of `v_log_with_state`. -/
def LoggerState.Drops (st : LoggerState) (level : Int) : Prop :=
  st.enabled = false ∨ level < st.level

/-- The route of `v_log_with_state`. -/
def LoggerState.Bridges (st : LoggerState) : Prop :=
  (st.useNgen && isNgenActive env && linked) = true

/-- The steps of a thread, case by case. -/
inductive Thread.Move (s : Shared τ) (t : τ) (now : Timestamp) :
    Thread → Shared τ × Thread → Prop
  | stay {θ} : θ.Blocked s → Move s t now θ (s, θ)
  | enter {call todo answers} : s.registryMutex = none →
      Move s t now ⟨.outside, call :: todo, answers⟩
        ({ s with registryMutex := some t }, ⟨.search call (ids s.loggers), todo, answers⟩)
  | exhaust {call todo answers} :
      Move s t now ⟨.search call [], todo, answers⟩ (s, ⟨.create call, todo, answers⟩)
  | hit {call id rest todo answers} : id = call.key →
      Move s t now ⟨.search call (id :: rest), todo, answers⟩ (s, ⟨.found call, todo, answers⟩)
  | miss {call id rest todo answers} : id ≠ call.key →
      Move s t now ⟨.search call (id :: rest), todo, answers⟩
        (s, ⟨.search call rest, todo, answers⟩)
  | upgrade {call todo answers} :
      Move s t now ⟨.found call, todo, answers⟩
        ({ s with
            loggers := storeState ((stateOf s.loggers call.key).upgrade call.ewtsNgen) s.loggers },
          ⟨if (stateOf s.loggers call.key).initialized then .unlock call else .initialise call,
            todo, answers⟩)
  | create {call todo answers} :
      Move s t now ⟨.create call, todo, answers⟩
        ({ s with loggers := .alloc call.key call.ewtsNgen :: s.loggers },
          ⟨.initialise call, todo, answers⟩)
  | initialise {call todo answers} :
      Move s t now ⟨.initialise call, todo, answers⟩
        ({ s with loggers := storeState (view env s.loggers call.key) s.loggers },
          ⟨.announce call (notices env linked (view env s.loggers call.key)), todo, answers⟩)
  | notice {call notice rest todo answers} :
      Move s t now ⟨.announce call (notice :: rest), todo, answers⟩
        (s.print .stdout (.notice notice), ⟨.announce call rest, todo, answers⟩)
  | announced {call todo answers} :
      Move s t now ⟨.announce call [], todo, answers⟩ (s, ⟨.unlock call, todo, answers⟩)
  | leave {call todo answers} :
      Move s t now ⟨.unlock call, todo, answers⟩
        ({ s with registryMutex := none }, ⟨.act call, todo, answers⟩)
  | query {call todo answers} : call.message = none →
      Move s t now ⟨.act call, todo, answers⟩
        (s, ⟨.outside, todo, answers ++ [call.answer (stateOf s.loggers call.key)]⟩)
  | drop {call level msg todo answers} : call.message = some (level, msg) →
      (stateOf s.loggers call.key).Drops level →
      Move s t now ⟨.act call, todo, answers⟩ (s, ⟨.outside, todo, answers ++ [.done]⟩)
  | pass {call level msg todo answers} : call.message = some (level, msg) →
      ¬ (stateOf s.loggers call.key).Drops level →
      Move s t now ⟨.act call, todo, answers⟩ (s, ⟨.route call level msg, todo, answers⟩)
  | bridge {call level msg todo answers} : (stateOf s.loggers call.key).Bridges env linked →
      Move s t now ⟨.route call level msg, todo, answers⟩
        ({ s with bridged := s.bridged ++ [((stateOf s.loggers call.key).ewtsId, level, msg)] },
          ⟨.outside, todo, answers ++ [.done]⟩)
  | alone {call level msg todo answers} : ¬ (stateOf s.loggers call.key).Bridges env linked →
      Move s t now ⟨.route call level msg, todo, answers⟩
        (s, ⟨.waiting call level msg now, todo, answers⟩)
  | acquire {call level msg read todo answers} : s.writeMutex = none →
      Move s t now ⟨.waiting call level msg read, todo, answers⟩
        ({ s with writeMutex := some t }, ⟨.opening call level msg read, todo, answers⟩)
  | opened {call level msg read todo answers st} :
      st = openStandaloneFile env opens now (stateOf s.loggers call.key) →
      Move s t now ⟨.opening call level msg read, todo, answers⟩
        ({ s with loggers := storeState st s.loggers },
          ⟨.write (st.file.getD .stdout) (standaloneLines read st.ewtsIdPadded level msg), todo,
            answers⟩)
  | print {sink line rest todo answers} :
      Move s t now ⟨.write sink (line :: rest), todo, answers⟩
        (s.print sink (.line line), ⟨.write sink rest, todo, answers⟩)
  | release {sink todo answers} :
      Move s t now ⟨.write sink [], todo, answers⟩
        ({ s with writeMutex := none }, ⟨.outside, todo, answers ++ [.done]⟩)

/-- The step function makes one of these moves. -/
theorem Thread.step_move (s : Shared τ) (t : τ) (now : Timestamp) (θ : Thread) :
    Thread.Move env linked opens s t now θ (θ.step env linked opens s t now) := by
  obtain ⟨position, todo, answers⟩ := θ
  cases position with
  | outside =>
    cases todo with
    | nil => exact .stay (Or.inl rfl)
    | cons call todo =>
      simp only [Thread.step]
      split
      · rename_i heq hfree
        cases heq
        exact .enter hfree
      · rename_i hblocked
        exact .stay (Or.inr (hblocked call todo rfl))
  | search call rest =>
    cases rest with
    | nil => exact .exhaust
    | cons id rest =>
      by_cases h : id = call.key
      · simp only [Thread.step, if_pos h]
        exact .hit h
      · simp only [Thread.step, if_neg h]
        exact .miss h
  | found call => exact .upgrade
  | create call => exact .create
  | initialise call => exact .initialise
  | announce call rest =>
    cases rest with
    | nil => exact .announced
    | cons notice rest => exact .notice
  | unlock call => exact .leave
  | act call =>
    simp only [Thread.step]
    split
    · rename_i hmessage
      exact .query hmessage
    · rename_i level msg hmessage
      split
      · rename_i hdrops
        exact .drop hmessage hdrops
      · rename_i hpasses
        exact .pass hmessage hpasses
  | route call level msg =>
    simp only [Thread.step]
    split
    · rename_i h
      exact .bridge h
    · rename_i h
      exact .alone h
  | waiting call level msg read =>
    simp only [Thread.step]
    split
    · rename_i hfree
      exact .acquire hfree
    · rename_i u hu
      refine .stay fun hfree => ?_
      rw [hfree] at hu
      cases hu
  | opening call level msg read => exact .opened rfl
  | write sink rest =>
    cases rest with
    | nil => exact .release
    | cons line rest => exact .print

end Moves

/-! ## What holds between two steps -/

section Invariants

variable {τ : Type} {env : Environ} {linked : Bool} {opens : Text → Bool}
variable {loggers loggers' : List LoggerState}

/-- The places that `g_registry_mutex` guards. -/
def Thread.InRegistry (θ : Thread) : Prop :=
  match θ.position with
  | .search .. | .found .. | .create .. | .initialise .. | .announce .. | .unlock .. => True
  | _ => False

/-- The places that `g_write_mutex` guards. -/
def Thread.InFiles (θ : Thread) : Prop :=
  match θ.position with
  | .opening .. | .write .. => True
  | _ => False

/-- The list has a state of the key that has read the environment. -/
def Known (loggers : List LoggerState) (key : Text) : Prop :=
  key ∈ ids loggers ∧ (stateOf loggers key).initialized = true

/-- The message of the call has passed the filter of a state that is there. -/
def Passed (loggers : List LoggerState) (call : Call) (level : Int) (msg : Text) : Prop :=
  Known loggers call.key ∧ call.message = some (level, msg) ∧
    ¬ (stateOf loggers call.key).Drops level

/-- What a place says about the list of states. -/
def Position.Sound (loggers : List LoggerState) : Position → Prop
  | .search call rest => ∃ passed, ids loggers = passed ++ rest ∧ call.key ∉ passed
  | .found call => call.key ∈ ids loggers
  | .create call => call.key ∉ ids loggers
  | .initialise call => call.key ∈ ids loggers
  | .announce call _ | .unlock call | .act call => Known loggers call.key
  | .route call level msg => Passed loggers call level msg
  | .waiting call level msg _ | .opening call level msg _ => Passed loggers call level msg
  | .outside | .write _ _ => True

/-- What other threads can make of the list: no key is lost, no state is reset. -/
def Grows (loggers loggers' : List LoggerState) : Prop :=
  ∀ key, Known loggers key →
    Known loggers' key ∧ (stateOf loggers' key).settled = (stateOf loggers key).settled

/-- The filter only looks at what is settled. -/
theorem LoggerState.drops_congr {st st' : LoggerState} {level : Int}
    (h : st'.settled = st.settled) : st'.Drops level ↔ st.Drops level := by
  have henabled : st'.enabled = st.enabled := congrArg Settled.enabled h
  have hlevel : st'.level = st.level := congrArg Settled.level h
  rw [LoggerState.Drops, LoggerState.Drops, henabled, hlevel]

/-- A guarded place relies on the ids of the list, any other place only on its growth. -/
theorem Position.Sound.mono {θ : Thread} (h : θ.position.Sound loggers)
    (hgrows : Grows loggers loggers') (hids : ids loggers' = ids loggers ∨ ¬ θ.InRegistry) :
    θ.position.Sound loggers' := by
  unfold Thread.InRegistry at hids
  cases hp : θ.position with
  | outside | write => trivial
  | announce call _ | unlock call | act call =>
    rw [hp] at h
    exact (hgrows call.key h).1
  | route call level msg | waiting call level msg | opening call level msg =>
    rw [hp] at h
    obtain ⟨hknown, hmessage, hpasses⟩ := h
    obtain ⟨hknown', hsettled⟩ := hgrows call.key hknown
    exact ⟨hknown', hmessage, fun hdrops => hpasses ((LoggerState.drops_congr hsettled).mp hdrops)⟩
  | search call rest | found call | create call | initialise call =>
    rw [hp] at h hids
    simp only [not_true_eq_false, or_false] at hids
    unfold Position.Sound at h ⊢
    rw [hids]
    exact h

theorem grows_refl : Grows loggers loggers := fun _ h => ⟨h, rfl⟩

/-- A state that is written back. -/
theorem grows_storeState {st : LoggerState} (h : st.ewtsId ∈ ids loggers)
    (hinit : (stateOf loggers st.ewtsId).initialized = true →
      st.initialized = true ∧ st.settled = (stateOf loggers st.ewtsId).settled) :
    Grows loggers (storeState st loggers) := by
  intro key hkey
  rw [Known, ids_storeState, stateOf_storeState h]
  by_cases hk : key = st.ewtsId
  · rw [hk] at hkey
    rw [hk, Function.update_self]
    exact ⟨⟨hkey.1, (hinit hkey.2).1⟩, (hinit hkey.2).2⟩
  · rw [Function.update_of_ne hk]
    exact ⟨hkey, rfl⟩

/-- A new state. -/
theorem grows_cons {st : LoggerState} (h : st.ewtsId ∉ ids loggers) :
    Grows loggers (st :: loggers) := by
  intro key hkey
  have hk : key ≠ st.ewtsId := fun hk => h (hk ▸ hkey.1)
  rw [Known, stateOf_cons, Function.update_of_ne hk]
  exact ⟨⟨List.mem_cons_of_mem _ hkey.1, hkey.2⟩, rfl⟩

/-- What holds between any two steps of a process. -/
structure World.Invariant (w : World τ) : Prop where
  registry : Guards Thread.InRegistry w.shared.registryMutex w.threads
  files : Guards Thread.InFiles w.shared.writeMutex w.threads
  nodup : (ids w.shared.loggers).Nodup
  sound : ∀ t, (w.threads t).position.Sound w.shared.loggers

/-- A thread leaves the list in order, grown, and with other ids only while it holds the lock;
where it goes fits the list. -/
structure Thread.StepSound (s : Shared τ) (θ : Thread) (r : Shared τ × Thread) : Prop where
  nodup : (ids r.1.loggers).Nodup
  grows : Grows s.loggers r.1.loggers
  ids_eq : ids r.1.loggers = ids s.loggers ∨ θ.InRegistry
  sound : r.2.position.Sound r.1.loggers

variable {s : Shared τ} {θ : Thread} {p : Position}

/-- A step that does not touch the list. -/
theorem Thread.StepSound.of_eq {r : Shared τ × Thread} (hnodup : (ids s.loggers).Nodup)
    (hloggers : r.1.loggers = s.loggers) (hsound : r.2.position.Sound s.loggers) :
    Thread.StepSound s θ r := by
  constructor
  · rw [hloggers]
    exact hnodup
  · rw [hloggers]
    exact grows_refl
  · exact Or.inl (congrArg ids hloggers)
  · rw [hloggers]
    exact hsound

/-- A step that writes a state back. -/
theorem Thread.StepSound.of_storeState {st : LoggerState} {r : Shared τ × Thread}
    (hnodup : (ids s.loggers).Nodup) (hmem : st.ewtsId ∈ ids s.loggers)
    (hinit : (stateOf s.loggers st.ewtsId).initialized = true →
      st.initialized = true ∧ st.settled = (stateOf s.loggers st.ewtsId).settled)
    (hloggers : r.1.loggers = storeState st s.loggers)
    (hsound : r.2.position.Sound (storeState st s.loggers)) : Thread.StepSound s θ r := by
  constructor
  · rw [hloggers, ids_storeState]
    exact hnodup
  · rw [hloggers]
    exact grows_storeState hmem hinit
  · rw [hloggers, ids_storeState]
    exact Or.inl rfl
  · rw [hloggers]
    exact hsound

/-- Opening a file leaves the rest of the state as it is. -/
theorem openStandaloneFile_keeps (env : Environ) (opens : Text → Bool) (now : Timestamp)
    (st : LoggerState) :
    (openStandaloneFile env opens now st).ewtsId = st.ewtsId ∧
      (openStandaloneFile env opens now st).initialized = st.initialized ∧
      (openStandaloneFile env opens now st).settled = st.settled := by
  obtain ⟨file, hfile⟩ := openStandaloneFile_eq env opens now st
  rw [hfile]
  exact ⟨rfl, rfl, rfl⟩

/-- Every step keeps the list in order. -/
theorem Thread.Move.stepSound {t : τ} {now : Timestamp} {r : Shared τ × Thread}
    (hmove : Thread.Move env linked opens s t now θ r) (hnodup : (ids s.loggers).Nodup)
    (h : θ.position.Sound s.loggers) : Thread.StepSound s θ r := by
  cases hmove with
  | stay => exact .of_eq hnodup rfl h
  | enter => exact .of_eq hnodup rfl ⟨[], rfl, List.not_mem_nil⟩
  | exhaust =>
    obtain ⟨passed, hids, hpassed⟩ := h
    rw [List.append_nil] at hids
    exact .of_eq hnodup rfl fun hmem => hpassed (hids ▸ hmem)
  | hit heq =>
    obtain ⟨passed, hids, hpassed⟩ := h
    refine .of_eq hnodup rfl ?_
    simp only [Position.Sound, hids, ← heq, List.mem_append, List.mem_cons_self, or_true]
  | @miss call id rest _ _ hne =>
    obtain ⟨passed, hids, hpassed⟩ := h
    refine .of_eq hnodup rfl ⟨passed ++ [id], ?_, ?_⟩
    · rw [hids, List.append_assoc, List.singleton_append]
    · rw [List.mem_append, List.mem_singleton, not_or]
      exact ⟨hpassed, Ne.symm hne⟩
  | @upgrade call =>
    have hid : ((stateOf s.loggers call.key).upgrade call.ewtsNgen).ewtsId = call.key :=
      ewtsId_stateOf h
    refine .of_storeState hnodup (hid.symm ▸ h) (fun hinit => ?_) rfl ?_
    · rw [hid] at hinit ⊢
      exact ⟨hinit, rfl⟩
    · have hmem : call.key ∈ ids (storeState
          ((stateOf s.loggers call.key).upgrade call.ewtsNgen) s.loggers) := by
        rwa [ids_storeState]
      by_cases hinit : (stateOf s.loggers call.key).initialized = true
      · simp only [if_pos hinit]
        refine ⟨hmem, ?_⟩
        rw [stateOf_storeState (hid.symm ▸ h), hid, Function.update_self]
        exact hinit
      · simp only [if_neg hinit]
        exact hmem
  | @create call =>
    have hid : (LoggerState.alloc call.key call.ewtsNgen).ewtsId = call.key :=
      take_loggerKey call.ewtsId
    refine ⟨?_, grows_cons (hid.symm ▸ h), Or.inr trivial, ?_⟩
    · rw [ids, List.map_cons, List.nodup_cons, hid]
      exact ⟨h, hnodup⟩
    · exact mem_ids.mpr ⟨_, List.mem_cons_self .., hid⟩
  | @initialise call =>
    have hid : (view env s.loggers call.key).ewtsId = call.key :=
      ewtsId_initLoggerState.trans (ewtsId_stateOf h)
    have hstate : stateOf (storeState (view env s.loggers call.key) s.loggers) call.key =
        view env s.loggers call.key := by
      rw [stateOf_storeState (hid.symm ▸ h), hid, Function.update_self]
    refine .of_storeState hnodup (hid.symm ▸ h) (fun hinit => ?_) rfl ⟨?_, ?_⟩
    · rw [hid] at hinit ⊢
      rw [view, initLoggerState_of_initialized hinit]
      exact ⟨hinit, rfl⟩
    · rwa [ids_storeState]
    · exact (congrArg LoggerState.initialized hstate).trans initialized_initLoggerState
  | notice | announced | leave => exact .of_eq hnodup rfl h
  | query | drop | bridge | print | release => exact .of_eq hnodup rfl trivial
  | pass hmessage hpasses => exact .of_eq hnodup rfl ⟨h, hmessage, hpasses⟩
  | alone | acquire => exact .of_eq hnodup rfl h
  | @opened call _ _ _ _ _ st hst =>
    obtain ⟨hmem, hinit⟩ : Known s.loggers call.key := h.1
    obtain ⟨hid', hinit', hsettled'⟩ :=
      openStandaloneFile_keeps env opens now (stateOf s.loggers call.key)
    rw [← hst] at hid' hinit' hsettled'
    have hid : st.ewtsId = call.key := hid'.trans (ewtsId_stateOf hmem)
    refine .of_storeState hnodup (hid.symm ▸ hmem) (fun _ => ?_) rfl trivial
    rw [hid]
    exact ⟨hinit'.trans hinit, hsettled'⟩

/-- Nobody has done anything. -/
theorem World.Invariant.start (programs : τ → List Call) : (World.start programs).Invariant where
  registry t := iff_of_false id (by simp [World.start])
  files t := iff_of_false id (by simp [World.start])
  nodup := List.nodup_nil
  sound _ := trivial

variable [DecidableEq τ]

/-- Every step keeps both locks in order. -/
theorem Thread.Move.guards {w : World τ} {t : τ} {now : Timestamp} {r : Shared τ × Thread}
    (hmove : Thread.Move env linked opens w.shared t now (w.threads t) r)
    (hregistry : Guards Thread.InRegistry w.shared.registryMutex w.threads)
    (hfiles : Guards Thread.InFiles w.shared.writeMutex w.threads) :
    Guards Thread.InRegistry r.1.registryMutex (Function.update w.threads t r.2) ∧
      Guards Thread.InFiles r.1.writeMutex (Function.update w.threads t r.2) := by
  generalize hθ : w.threads t = θ at hmove
  have registry {p : Thread} (hp : p.InRegistry ↔ θ.InRegistry) :
      Guards Thread.InRegistry w.shared.registryMutex (Function.update w.threads t p) :=
    hregistry.keep (hθ ▸ hp)
  have files {p : Thread} (hp : p.InFiles ↔ θ.InFiles) :
      Guards Thread.InFiles w.shared.writeMutex (Function.update w.threads t p) :=
    hfiles.keep (hθ ▸ hp)
  cases hmove with
  | stay | exhaust | hit | miss | create | initialise | notice | announced =>
    exact ⟨registry Iff.rfl, files Iff.rfl⟩
  | query | drop | pass | bridge | alone | opened | print => exact ⟨registry Iff.rfl, files Iff.rfl⟩
  | upgrade =>
    split
    · exact ⟨registry Iff.rfl, files Iff.rfl⟩
    · exact ⟨registry Iff.rfl, files Iff.rfl⟩
  | enter hfree =>
    rw [hfree] at hregistry
    exact ⟨hregistry.acquire trivial, files Iff.rfl⟩
  | leave =>
    refine ⟨hregistry.release ?_ id, files Iff.rfl⟩
    rw [hθ]
    trivial
  | acquire hfree =>
    rw [hfree] at hfiles
    exact ⟨registry Iff.rfl, hfiles.acquire trivial⟩
  | release =>
    refine ⟨registry Iff.rfl, hfiles.release ?_ id⟩
    rw [hθ]
    trivial

/-- Every step keeps what holds between two steps. -/
theorem World.Invariant.step {w : World τ} (h : w.Invariant) (turn : τ × Timestamp) :
    (w.step env linked opens turn).Invariant := by
  obtain ⟨t, now⟩ := turn
  have hmove := Thread.step_move env linked opens w.shared t now (w.threads t)
  obtain ⟨hregistry, hfiles⟩ := hmove.guards h.registry h.files
  have hsound := hmove.stepSound h.nodup (h.sound t)
  refine ⟨hregistry, hfiles, hsound.nodup, fun u => ?_⟩
  by_cases hu : u = t
  · simp only [World.step, hu, Function.update_self]
    exact hsound.sound
  · simp only [World.step, Function.update_of_ne hu]
    exact (h.sound u).mono hsound.grows (hsound.ids_eq.imp_right (h.registry.outside · hu))

end Invariants

end Ewts.C
