import Ewts.Correctness.Coupled
import Ewts.Correctness.CppFiles
import Ewts.Correctness.Interleaving
import Ewts.Correctness.Startup

/-!
# What modules hand to the bridge

Along a run the loggers of each runtime are as the environment settles them, with the flags of
the calls so far. A bridged message is handed on exactly when it passes the filter of its runtime.
-/

namespace Ewts

/-! ## The C runtime -/

namespace C

section Follow

variable {env : Environ} {loggers : List LoggerState} {flags : Text → Bool}

/-- The states are as the environment settles them, and have these flags. -/
def Follows (env : Environ) (flags : Text → Bool) (loggers : List LoggerState) : Prop :=
  ∀ key, key.take 63 = key →
    { view env loggers key with file := none } = initLoggerState env (.alloc key (flags key))

theorem follows_nil : Follows env (fun _ => false) [] := by
  intro key hkey
  have hview : view env [] key = initLoggerState env (.alloc key false) := rfl
  rw [hview, initLoggerState, if_neg (by simp [LoggerState.alloc])]
  rfl

/-- A call settles its state, adds its flag and may open its file. -/
theorem view_run (host : Host) (loggers : List LoggerState) (call : Call) :
    ∃ file, view host.env (call.run host loggers) = Function.update (view host.env loggers) call.key
      { (view host.env loggers call.key).upgrade call.ewtsNgen with file := file } := by
  have hget := view_getLoggerState host.env loggers call.ewtsId call.ewtsNgen
  rcases callStep_eq loggers (host, call) with hrun | ⟨file, hrun⟩
  · exact ⟨(view host.env loggers call.key).file, (congrArg (view host.env) hrun).trans hget⟩
  · obtain ⟨st, hst⟩ : ∃ st : LoggerState, st =
        { (view host.env loggers call.key).upgrade call.ewtsNgen with file := file } := ⟨_, rfl⟩
    have hid : st.ewtsId = call.key := by
      rw [hst]
      exact ewtsId_view ..
    have hsettled : initLoggerState host.env st = st := by
      rw [hst]
      exact initLoggerState_of_initialized initialized_initLoggerState
    have hmem : st.ewtsId ∈ ids (getLoggerState host.env loggers call.ewtsId call.ewtsNgen).2 := by
      rw [hid]
      exact mem_ids_getLoggerState ..
    have hstate : { (getLoggerState host.env loggers call.ewtsId call.ewtsNgen).1 with
        file := file } = st := by
      rw [getLoggerState_fst, hst]
      rfl
    refine ⟨file, (congrArg (view host.env) hrun).trans ?_⟩
    simp only [hstate]
    rw [view_storeState hmem, hid, hsettled, hget, ← hst]
    exact Function.update_idem ..

theorem Follows.run {host : Host} (h : Follows host.env flags loggers) (call : Call) :
    Follows host.env (Function.update flags call.key (flags call.key || call.ewtsNgen))
      (call.run host loggers) := by
  obtain ⟨file, hview⟩ := view_run host loggers call
  intro key hkey
  rw [hview]
  by_cases hown : key = call.key
  · rw [hown] at hkey ⊢
    have hsettled := h call.key hkey
    rw [Function.update_self, Function.update_self]
    have hflag : LoggerState.alloc call.key (flags call.key || call.ewtsNgen) =
        (LoggerState.alloc call.key (flags call.key)).upgrade call.ewtsNgen := rfl
    rw [hflag, initLoggerState_upgrade, ← hsettled]
    rfl
  · rw [Function.update_of_ne hown, Function.update_of_ne hown]
    exact h key hkey

/-- What such a state decides. -/
theorem Follows.state (h : Follows env flags loggers) (call : Call) :
    let st := view env loggers call.key
    st.ewtsId = call.key ∧ st.useNgen = flags call.key ∧
      st.enabled = parseEnabled (getenv env (text "EWTS_ENABLED")) ∧
      st.level = initialLevel env call.key := by
  have hkey : call.key.take 63 = call.key := take_loggerKey call.ewtsId
  have hsettled := h call.key hkey
  have halloc : initLoggerState env (.alloc call.key (flags call.key)) =
      { LoggerState.alloc call.key (flags call.key) with
        initialized := true
        ewtsIdPadded := padEwtsId (call.key.take 63)
        enabled := parseEnabled (getenv env (text "EWTS_ENABLED"))
        level := initialLevel env (call.key.take 63) } := rfl
  rw [halloc, hkey] at hsettled
  refine ⟨ewtsId_view .., ?_, ?_, ?_⟩
  · exact congrArg LoggerState.useNgen hsettled
  · exact congrArg LoggerState.enabled hsettled
  · exact congrArg LoggerState.level hsettled

/-- What a call hands to the bridge. -/
theorem Follows.forward {host : Host} (h : Follows host.env flags loggers)
    (hlinked : host.linked = true) (hactive : isNgenActive host.env = true) (call : Call) :
    (call.output host loggers).bind Output.forward =
      if flags call.key then
        call.message.bind fun m =>
          if parseEnabled (getenv host.env (text "EWTS_ENABLED")) = false ∨
            m.1 < initialLevel host.env call.key then none else some ⟨call.key, m.1, m.2⟩
      else none := by
  have houtput : call.output host loggers = call.message.bind fun m =>
      (vLogWithState host.env host.linked host.opens host.now (view host.env loggers call.key)
        m.1 m.2).1 := by
    have hmodule (id : Text) (level : Int) (msg : Option Text) :
        (ewtsLogModule host loggers id level msg).1 = (msg.map (level, ·)).bind fun m =>
          (vLogWithState host.env host.linked host.opens host.now
            (view host.env loggers (loggerKey id)) m.1 m.2).1 := by
      cases msg with
      | none => rfl
      | some msg =>
        have hfst := getLoggerState_fst host.env loggers id false
        rw [LoggerState.upgrade_false] at hfst
        simp only [ewtsLogModule, hfst]
        rfl
    cases call with
    | ewtsLogModule id level msg => exact hmodule (id.getD []) level msg
    | log level msg => exact hmodule (text "EWTS") level msg
    | _ => rfl
  obtain ⟨hid, huse, henabled, hlevel⟩ := h.state call
  rw [houtput]
  cases call.message with
  | none => simp
  | some m =>
    simp only [Option.bind_some, vLogWithState, henabled, hlevel, huse, hactive, hlinked, hid,
      Bool.and_true]
    by_cases hflag : flags call.key = true
    · rw [if_pos hflag, if_pos hflag]
      split <;> rfl
    · rw [if_neg hflag, if_neg hflag]
      split <;> rfl

end Follow

end C

/-! ## The C++ runtime -/

namespace Cpp

section Follow

variable {env : Environ} {host : Host} {loggers : Loggers} {flags : Text → Option Bool}
  {current : Option Text} {key : Text}

/-- The loggers are as the environment settles them, and have these flags. -/
def Follows (env : Environ) (flags : Text → Option Bool) (loggers : Loggers) : Prop :=
  ∀ key, (view env loggers key).map Logger.settled =
    (flags key).map fun flag => ((Logger.new key flag).initOnce env).settled

theorem follows_none : Follows env (fun _ => none) fun _ => none := fun _ => rfl

/-- A lookup makes a logger with its flag, or finds the one that is there. -/
theorem Follows.get (h : Follows env flags loggers) (key : Text) (ewtsNgen : Bool) :
    Follows env (Function.update flags key (some ((flags key).getD ewtsNgen)))
      (loggers.get key ewtsNgen) := by
  have hown := h key
  intro other
  cases hkey : loggers key with
  | some lg =>
    rw [view_of_some hkey, Option.map_some] at hown
    obtain ⟨flag, hflag, _⟩ := Option.map_eq_some_iff.mp hown.symm
    have hsame : Function.update flags key (some ((flags key).getD ewtsNgen)) = flags := by
      rw [hflag, Option.getD_some, ← hflag, Function.update_eq_self]
    rw [Loggers.get_of_some hkey, hsame]
    exact h other
  | none =>
    rw [view_of_none hkey, Option.map_none] at hown
    have hflag : flags key = none := Option.map_eq_none_iff.mp hown.symm
    rw [Loggers.get_of_none hkey, view_set, hflag, Option.getD_none]
    by_cases hother : other = key
    · rw [hother, Function.update_self, Function.update_self]
      rfl
    · rw [Function.update_of_ne hother, Function.update_of_ne hother]
      exact h other

/-- A method settles its logger, and may open its file. -/
theorem Method.settled_run (opened : Timestamp) (lg : Logger) (method : Method) :
    ((method.run host opened lg).2.2.initOnce host.env).settled =
      (lg.initOnce host.env).settled := by
  have hagain (lg : Logger) : (lg.initOnce host.env).initOnce host.env = lg.initOnce host.env :=
    Logger.initOnce_initOnce ..
  cases method with
  | log level message =>
    cases message with
    | none => rfl
    | some message =>
      simp only [run, Logger.logAt]
      split
      · rw [hagain]
      · split
        · rw [hagain]
        · split
          · rw [hagain]
          · rename_i lg' hopen
            have hsettled := Logger.openStandaloneFile_settled hopen
            have hinit : lg'.initialized = true := by
              rw [Logger.eq_of_settled hsettled]
              exact Logger.initialized_initOnce
            rw [Logger.initOnce_of_initialized hinit, hsettled]
  | isLoggingEnabled | getLogLevel => rw [run, hagain]

/-- The method of a logger keeps the flags. -/
theorem Follows.set (h : Follows host.env flags loggers) (hkey : loggers.Present key)
    (opened : Timestamp) (method : Method) : Follows host.env flags
      (Function.update loggers key (some (method.run host opened (loggers.at key)).2.2)) := by
  obtain ⟨lg, hlg⟩ := hkey
  intro other
  rw [view_set]
  by_cases hother : other = key
  · rw [hother, Function.update_self, Option.map_some, Method.settled_run, Loggers.at_of_some hlg]
    have hown := h key
    rw [view_of_some hlg, Option.map_some] at hown
    exact hown
  · rw [Function.update_of_ne hother]
    exact h other

/-- What a message hands to the bridge. -/
theorem Logger.forward_logAt (hlinked : host.linked = true) (hactive : isNgenActive host.env = true)
    (opened : Timestamp) (lg : Logger) (level : Int) (message : Text) :
    (lg.logAt host opened level message).1.bind Output.forward =
      if lg.useNgen then
        if (lg.initOnce host.env).enabled = false ∨ level < (lg.initOnce host.env).level then none
        else some ⟨cStr lg.ewtsId, level, cStr message⟩
      else none := by
  have huse : (lg.initOnce host.env).useNgen = lg.useNgen := Logger.useNgen_initOnce
  have hid : (lg.initOnce host.env).ewtsId = lg.ewtsId := Logger.ewtsId_initOnce
  simp only [logAt, huse, hid, hactive, hlinked, Bool.and_true]
  by_cases hflag : lg.useNgen = true
  · rw [if_pos hflag, if_pos hflag]
    split <;> rfl
  · rw [if_neg hflag, if_neg hflag]
    split
    · rfl
    · split <;> rfl

/-- What a logger with these flags decides. -/
theorem Follows.logger (h : Follows env flags loggers) (hkey : loggers.Present key) :
    let lg := (loggers.at key).initOnce env
    flags key = some (loggers.at key).useNgen ∧ (loggers.at key).ewtsId = trimUpper key ∧
      lg.enabled = parseEnabled (getenv env (text "EWTS_ENABLED")) ∧
      lg.level = initialLevel env (trimUpper key) := by
  obtain ⟨lg, hlg⟩ := hkey
  have hown := h key
  rw [view_of_some hlg, Option.map_some] at hown
  obtain ⟨flag, hflag, hsettled⟩ := Option.map_eq_some_iff.mp hown.symm
  have huse : (lg.initOnce env).useNgen = lg.useNgen := Logger.useNgen_initOnce
  have hid : (lg.initOnce env).ewtsId = lg.ewtsId := Logger.ewtsId_initOnce
  rw [Loggers.at_of_some hlg]
  refine ⟨?_, ?_, ?_, ?_⟩
  · rw [hflag, ← huse]
    exact congrArg some (congrArg Logger.useNgen hsettled)
  · rw [← hid]
    exact (congrArg Logger.ewtsId hsettled).symm
  · exact (congrArg Logger.enabled hsettled).symm
  · exact (congrArg Logger.level hsettled).symm

/-- The current logger of a thread is there, under its own key. -/
def CurrentFollows (loggers : Loggers) (current : Option Text) : Prop :=
  ∀ key ∈ current, loggers.Present key ∧ trimUpper key = key

/-- A call finds the logger that it is about. -/
theorem Call.present_find (call : Call) (hcurrent : CurrentFollows loggers current) :
    (call.find loggers current).Present (call.key current) ∧
      trimUpper (call.key current) = call.key current := by
  cases hlookup : call.lookup current with
  | none =>
    obtain ⟨key, method, rfl, rfl⟩ := Call.lookup_eq_none hlookup
    exact hcurrent key rfl
  | some l =>
    obtain ⟨own, ewtsNgen⟩ := l
    have hown : call.key current = own := by
      cases call with
      | ewtsInit | of =>
        cases hlookup
        rfl
      | current method =>
        cases current with
        | none =>
          cases hlookup
          rfl
        | some key => cases hlookup
    rw [find, hlookup, hown]
    refine ⟨?_, Call.trimUpper_lookup hlookup⟩
    cases hloggers : loggers own with
    | none =>
      simp only [Loggers.get_of_none hloggers]
      exact ⟨_, Function.update_self ..⟩
    | some lg =>
      simp only [Loggers.get_of_some hloggers]
      exact ⟨lg, hloggers⟩

/-- What a call hands to the bridge. -/
theorem Call.forward_run {call : Call} (h : Follows host.env flags (call.find loggers current))
    (hcurrent : CurrentFollows loggers current) (hlinked : host.linked = true)
    (hactive : isNgenActive host.env = true) :
    (call.run host loggers current).1.bind Output.forward =
      if flags (call.key current) = some true then
        call.message.bind fun m =>
          if parseEnabled (getenv host.env (text "EWTS_ENABLED")) = false ∨
            m.1 < initialLevel host.env (call.key current) then none
          else some ⟨cStr (call.key current), m.1, cStr m.2⟩
      else none := by
  obtain ⟨hpresent, htrim⟩ := call.present_find hcurrent
  obtain ⟨hflag, hid, henabled, hlevel⟩ := h.logger hpresent
  rw [htrim] at hid hlevel
  have huse : flags (call.key current) = some true ↔
      ((call.find loggers current).at (call.key current)).useNgen = true := by
    rw [hflag, Option.some.injEq]
  simp only [huse]
  rw [run, message]
  cases call.method with
  | none => simp
  | some method =>
    cases method with
    | log level message =>
      cases message with
      | none => simp [Method.run]
      | some message =>
        simp only [Method.run, Logger.forward_logAt hlinked hactive, Option.map_some,
          Option.bind_some, hid, henabled, hlevel]
    | isLoggingEnabled | getLogLevel => simp [Method.run]

/-- A call keeps the flags that it has found. -/
theorem Call.follows_run {call : Call} (h : Follows host.env flags (call.find loggers current))
    (hcurrent : CurrentFollows loggers current) :
    Follows host.env flags (call.run host loggers current).2 := by
  rw [run]
  cases call.method with
  | none => exact h
  | some method => exact h.set (call.present_find hcurrent).1 host.now method

theorem Loggers.Present.set (h : loggers.Present key) (own : Text) (lg : Logger) :
    Loggers.Present (Function.update loggers own (some lg)) key := by
  obtain ⟨lg', hlg'⟩ := h
  by_cases hown : key = own
  · exact ⟨lg, by rw [hown, Function.update_self]⟩
  · exact ⟨lg', by rw [Function.update_of_ne hown, hlg']⟩

/-- The current logger stays there. -/
theorem Call.currentFollows_run (call : Call) (hcurrent : CurrentFollows loggers current) :
    CurrentFollows (call.run host loggers current).2 (call.next current) := by
  obtain ⟨hpresent, htrim⟩ := call.present_find hcurrent
  have hfound (key : Text) (hkey : loggers.Present key) :
      (call.find loggers current).Present key := by
    rw [find]
    cases call.lookup current with
    | none => exact hkey
    | some l =>
      obtain ⟨own, ewtsNgen⟩ := l
      cases hown : loggers own with
      | none =>
        simp only [Loggers.get_of_none hown]
        exact hkey.mono (Loggers.grows_new hown _)
      | some lg =>
        simp only [Loggers.get_of_some hown]
        exact hkey
  have hrun (key : Text) (hkey : (call.find loggers current).Present key) :
      (call.run host loggers current).2.Present key := by
    rw [run]
    cases call.method with
    | none => exact hkey
    | some method => exact hkey.set (call.key current) _
  intro key hkey
  cases call with
  | ewtsInit ewtsId ewtsNgen =>
    cases hkey
    exact ⟨hrun _ hpresent, htrim⟩
  | current | of =>
    obtain ⟨hthere, hown⟩ := hcurrent key hkey
    exact ⟨hrun key (hfound key hthere), hown⟩

end Follow

end Cpp

/-! ## The Fortran runtime -/

namespace Fortran

section Follow

variable {read : ListRead} {bridge : Bool} {env : Environ} {host : Host} {reg : Registry}

/-- The flag that `init_logger_state` finds. -/
def enabledIn (env : Environ) : Bool :=
  ((nonemptyValue env (text "EWTS_ENABLED")).map parseEnabled).getD true

/-- The level that `init_logger_state` finds. -/
def initialLevel (read : ListRead) (env : Environ) (ewtsId : Text) : Int :=
  let own := ((nonemptyValue env (envKeyFor ewtsId)).map (parseLevel read)).getD 0
  let fallback := ((nonemptyValue env (text "EWTS_LOG_LEVEL")).map (parseLevel read)).getD 20
  if own = 0 then if fallback = 0 then 20 else fallback else own

/-- A logger is as the environment settles it. -/
def LoggerState.Settled (read : ListRead) (env : Environ) (logger : LoggerState) : Prop :=
  logger.initialized = true →
    logger.enabled = enabledIn env ∧ logger.levelMin = initialLevel read env logger.ewtsId

theorem initialLevel_congr {id id' : Text} (h : trim id = trim id') :
    initialLevel read env id = initialLevel read env id' := by
  have hkey : envKeyFor id = envKeyFor id' := by rw [envKeyFor, envKeyFor, h]
  simp only [initialLevel, hkey]

/-- An initialisation settles a logger. -/
theorem LoggerState.Settled.init {vars : Variables} {logger : LoggerState} {o : Outcome}
    (h : logger.Settled read env)
    (ho : initLoggerState read env bridge vars logger = some o) :
    o.logger.initialized = true ∧ o.logger.Settled read env := by
  unfold initLoggerState at ho
  split at ho
  · rename_i hinit
    cases ho
    exact ⟨hinit, h⟩
  · obtain ⟨vars, _, rfl⟩ := Option.map_eq_some_iff.mp ho
    exact ⟨rfl, fun _ => ⟨rfl, rfl⟩⟩

/-- The logger that is found or appended. -/
theorem findOrAppend_settled {loggers : List LoggerState}
    (h : ∀ lg ∈ loggers, lg.Settled read env) (id : Text) :
    let r := findOrAppend loggers (loggerKey id)
    (∀ lg ∈ r.2, lg.Settled read env) ∧ ∃ logger, r.2[r.1]? = some logger ∧
      trim logger.ewtsId = trim (loggerKey id) := by
  rw [findOrAppend]
  cases hidx : loggers.findIdx? fun logger => trim logger.ewtsId = trim (loggerKey id) with
  | some idx =>
    obtain ⟨hlt, hsame, _⟩ := List.findIdx?_eq_some_iff_getElem.mp hidx
    exact ⟨h, loggers[idx], List.getElem?_eq_getElem hlt, by simpa using hsame⟩
  | none =>
    refine ⟨?_, appendLogger (trim (loggerKey id)), List.getElem?_concat_length, ?_⟩
    · rw [List.forall_mem_append]
      exact ⟨h, List.forall_mem_singleton.mpr fun hinit => Bool.noConfusion hinit⟩
    · rw [appendLogger, idKey_trim, idKey_loggerKey]

variable (bridge) in
/-- A lookup returns a settled logger, when the rank can be read. -/
theorem getLoggerIndex_settled (hrank : RankReadable read env)
    (h : ∀ lg ∈ reg.loggers, lg.Settled read env) (id : Text) :
    ∃ found, getLoggerIndex read bridge env reg id = some found ∧
      found.logger.initialized = true ∧ found.logger.Settled read env ∧
      trim found.logger.ewtsId = trim (loggerKey id) ∧
      ∀ lg ∈ found.registry.loggers, lg.Settled read env := by
  obtain ⟨hall, logger, hlogger, hid⟩ := findOrAppend_settled h id
  have hread := (initLoggerState_isSome_iff read env bridge reg.vars logger).mpr (Or.inr hrank)
  obtain ⟨o, ho⟩ := Option.isSome_iff_exists.mp hread
  have hmem : logger ∈ (findOrAppend reg.loggers (loggerKey id)).2 := List.mem_of_getElem? hlogger
  obtain ⟨hinit, hsettled⟩ := (hall logger hmem).init ho
  have hfound : getLoggerIndex read bridge env reg id = some
      ⟨(findOrAppend reg.loggers (loggerKey id)).1, o.logger,
        ⟨o.vars, (findOrAppend reg.loggers (loggerKey id)).2.set
          (findOrAppend reg.loggers (loggerKey id)).1 o.logger⟩, o.lines⟩ := by
    simp only [getLoggerIndex, hlogger, Option.bind_some, ho, Option.map_some]
  refine ⟨_, hfound, hinit, hsettled, ?_, forall_set hall hsettled _⟩
  rw [(initLoggerState_ewtsId ho).1]
  exact hid

/-- What a message hands to the bridge. -/
theorem forward_writeLog {logger : LoggerState} (hactive : isNgenActive host.env = true)
    (msg : Text) (lvl : Int) :
    (writeLog bridge host logger msg lvl).1.bind Output.forward =
      if bridge then
        if logger.enabled = false ∨ lvl < logger.levelMin then none
        else some ⟨cStr (trim logger.ewtsId), lvl, cStr (trim msg)⟩
      else none := by
  rw [writeLog]
  cases bridge with
  | false =>
    split
    · rfl
    · rw [Bool.false_and]
      rfl
  | true =>
    split
    · rfl
    · rw [Bool.true_and, if_pos hactive]
      rfl

variable (bridge) in
/-- A call of the writer. -/
theorem forward_writeLogModule (hrank : RankReadable read host.env)
    (hactive : isNgenActive host.env = true)
    (h : ∀ lg ∈ reg.loggers, lg.Settled read host.env) (id msg : Text) (lvl : Int) :
    ∃ output found, writeLogModule read bridge host reg id msg lvl = some (output, found) ∧
      (∀ lg ∈ found.registry.loggers, lg.Settled read host.env) ∧
      output.bind Output.forward =
        if bridge then
          if enabledIn host.env = false ∨
            lvl < initialLevel read host.env (trim (loggerKey id)) then none
          else some ⟨cStr (trim (loggerKey id)), lvl, cStr (trim msg)⟩
        else none := by
  obtain ⟨found, hfound, hinit, hsettled, hid, hall⟩ :=
    getLoggerIndex_settled bridge hrank h id
  obtain ⟨henabled, hlevel⟩ := hsettled hinit
  have hlevel' : found.logger.levelMin = initialLevel read host.env (trim (loggerKey id)) := by
    rw [hlevel]
    exact initialLevel_congr (by rw [hid, trim_trim])
  obtain ⟨unitLog, path, hlog⟩ := writeLog_eq bridge host found.logger msg lvl
  refine ⟨_, _, by rw [writeLogModule, hfound, Option.map_some], ?_, ?_⟩
  · refine forall_set hall ?_ _
    rw [hlog]
    exact hsettled
  · rw [forward_writeLog hactive, henabled, hlevel', hid]

end Follow

end Fortran

/-! ## All runtimes -/

/-- The strings that the pointers of a message stand for. -/
def Forward.strings (m : Forward) : Forward := ⟨cStr m.ewtsId, m.level, cStr m.message⟩

namespace Ngen

section Modules

variable {read : Fortran.ListRead} {bridge : Bool} {env : Environ} {r : Routes} {m : Modules}

/-- The filter of the runtime of a call. -/
def ModuleCall.Drops (read : Fortran.ListRead) (env : Environ) (call : ModuleCall) (w : Forward) :
    Prop :=
  match call with
  | .c .. => C.parseEnabled (getenv env (text "EWTS_ENABLED")) = false ∨
      w.level < C.initialLevel env w.ewtsId
  | .cpp .. => Cpp.parseEnabled (getenv env (text "EWTS_ENABLED")) = false ∨
      w.level < Cpp.initialLevel env w.ewtsId
  | .fortran .. => Fortran.enabledIn env = false ∨
      w.level < Fortran.initialLevel read env w.ewtsId

/-- What a call has handed on, against what it would hand on without a filter: the same strings,
or nothing of what is dropped. -/
def Filtered (Drops : Forward → Prop) (sent wanted : Option Forward) : Prop :=
  sent.map Forward.strings = wanted.map Forward.strings ∨ sent = none ∧ ∀ w ∈ wanted, Drops w

/-- A filter behind the route flag. -/
theorem filtered_of_flag {flag : Prop} [Decidable flag] {message : Option (Int × Text)}
    {below : Int × Text → Prop} [DecidablePred below] {made wanted : Int × Text → Forward}
    {Drops : Forward → Prop} (hsame : ∀ m, (made m).strings = (wanted m).strings)
    (hdrops : ∀ m, below m → Drops (wanted m)) :
    Filtered Drops
      (if flag then message.bind fun m => if below m then none else some (made m) else none)
      (if flag then message.map wanted else none) := by
  by_cases hflag : flag
  · rw [if_pos hflag, if_pos hflag]
    cases message with
    | none => exact Or.inl rfl
    | some m =>
      rw [Option.bind_some, Option.map_some]
      by_cases hbelow : below m
      · rw [if_pos hbelow]
        refine Or.inr ⟨rfl, fun w hw => ?_⟩
        cases hw
        exact hdrops m hbelow
      · rw [if_neg hbelow]
        exact Or.inl (congrArg some (hsame m))
  · rw [if_neg hflag, if_neg hflag]
    exact Or.inl rfl

/-- The modules of a process whose loggers route like this. -/
structure Modules.Follows (read : Fortran.ListRead) (env : Environ) (r : Routes) (m : Modules) :
    Prop where
  c : C.Follows env r.c m.c
  cpp : Cpp.Follows env r.cpp m.cpp
  current : m.current = r.current
  there : Cpp.CurrentFollows m.cpp m.current
  fortran : ∀ lg ∈ m.fortran.loggers, lg.Settled read env

theorem Modules.follows_start (vars : Fortran.Variables) :
    (Modules.start vars).Follows read env .start := by
  refine ⟨C.follows_nil, Cpp.follows_none, rfl, fun key hkey => ?_, fun lg hlg => ?_⟩
  · cases hkey
  · cases hlg

/-- Every call keeps the loggers settled, and hands on what passes the filter. -/
theorem Modules.Follows.run (h : m.Follows read env r) (hactive : C.isNgenActive env = true)
    (hrank : Fortran.RankReadable read env) (call : ModuleCall) :
    ∃ sent m', m.run read bridge env call = some (sent, m') ∧ m'.Follows read env (r.next call) ∧
      Filtered (call.Drops read env) sent (r.sent bridge call) := by
  cases call with
  | c host call =>
    let host' : C.Host := { host with env := env, linked := true }
    have hc : C.Follows host'.env r.c m.c := h.c
    have hforward := hc.forward rfl hactive call
    refine ⟨_, _, rfl, ⟨hc.run call, h.cpp, h.current, h.there, h.fortran⟩, ?_⟩
    rw [hforward]
    exact filtered_of_flag (fun m => rfl) fun m hbelow => hbelow
  | cpp host call =>
    let host' : Cpp.Host := { host with env := env, linked := true }
    have hfound : Cpp.Follows host'.env (r.found call) (call.find m.cpp m.current) := by
      rw [Routes.found, Cpp.Call.find, h.current]
      cases call.lookup r.current with
      | none => exact h.cpp
      | some l => exact h.cpp.get l.1 l.2
    have hforward := Cpp.Call.forward_run hfound h.there rfl hactive
    have hkept : Cpp.Follows host'.env (r.found call) (call.run host' m.cpp m.current).2 :=
      Cpp.Call.follows_run hfound h.there
    refine ⟨_, _, rfl, ⟨h.c, hkept, ?_, ?_, h.fortran⟩, ?_⟩
    · exact congrArg (call.next ·) h.current
    · exact call.currentFollows_run h.there
    · rw [hforward, h.current]
      refine filtered_of_flag (fun m => ?_) fun m hbelow => hbelow
      simp only [Forward.strings, cStr_cStr]
  | fortran host id msg lvl =>
    let host' : Fortran.Host := { host with env := env }
    have hloggers : ∀ lg ∈ m.fortran.loggers, lg.Settled read host'.env := h.fortran
    have hrank' : Fortran.RankReadable read host'.env := hrank
    obtain ⟨output, found, hwrite, hall, hforward⟩ :=
      Fortran.forward_writeLogModule bridge hrank' hactive hloggers id msg lvl
    have hrun : m.run read bridge env (.fortran host id msg lvl) =
        some (output.bind Fortran.Output.forward, { m with fortran := found.registry }) :=
      (congrArg (Option.map _) hwrite).trans rfl
    have hfiltered : Filtered ((ModuleCall.fortran host id msg lvl).Drops read env)
        (if bridge then (some (lvl, Fortran.trim msg)).bind fun w : Int × Text =>
          if Fortran.enabledIn env = false ∨
            w.1 < Fortran.initialLevel read env (Fortran.trim (Fortran.loggerKey id)) then none
          else some ⟨cStr (Fortran.trim (Fortran.loggerKey id)), w.1, cStr w.2⟩
        else none)
        (if bridge then (some (lvl, Fortran.trim msg)).map fun w : Int × Text =>
          ⟨Fortran.trim (Fortran.loggerKey id), w.1, w.2⟩
        else none) := by
      refine filtered_of_flag (fun w => ?_) fun w hbelow => hbelow
      simp only [Forward.strings, cStr_cStr]
    refine ⟨_, _, hrun, ⟨h.c, h.cpp, h.current, h.there, hall⟩, ?_⟩
    rw [hforward]
    exact hfiltered

end Modules

end Ngen

end Ewts
