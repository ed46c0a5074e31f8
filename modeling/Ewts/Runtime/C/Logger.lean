import Ewts.Core.CString
import Ewts.Core.Lines
import Ewts.Core.Timestamp

/-!
# The logger of the C runtime

Module libraries log through a state per EWTS id. The state reads its level from the
environment once; a message that reaches it goes to the ngen bridge or to a file. A
character of a text is a `char` here: the sizes of buffers count bytes.
-/

namespace Ewts.C

/-- `trim_copy(in, out, out_sz)`. -/
def trimCopy (outSz : Nat) (s : Text) : Text := (trim (cStr s)).take (outSz - 1)

/-- Characters up-cased in the C locale. -/
def toupperAll (s : Text) : Text := s.map CodePoint.toUpper

/-- `upper_copy(in, out, out_sz)`; its buffer `tmp` has 128 bytes. -/
def upperCopy (outSz : Nat) (s : Text) : Text := (toupperAll (trimCopy 128 s)).take (outSz - 1)

/-- `streq_ci(a, b)`. -/
def streqCi (a b : Text) : Bool := toupperAll a = toupperAll b

/-- `parse_enabled(v)`. -/
def parseEnabled (v : Text) : Bool :=
  trimCopy 32 v = [] ||
    !([text "0", text "false", text "no", text "off", text "disabled"].any
      (streqCi (trimCopy 32 v)))

/-- The level names that `parse_level` compares with, in order. -/
def levelNames : List (Text × Int) :=
  [("DEBUG", 10), ("PERFORM", 15), ("INFO", 20), ("WARN", 30), ("WARNING", 30), ("ERROR", 40),
    ("SEVERE", 40), ("FATAL", 50), ("CRITICAL", 50), ("STATUS", 60), ("NOTSET", 0),
    ("NONE", 0)].map fun e => (text e.1, e.2)

/-- `parse_level(v)`: a number that takes up the whole value, then the names. -/
def parseLevel (v : Text) : Int :=
  if trimCopy 32 v = [] then 0
  else if (strtol (trimCopy 32 v)).2 = [] ∧ 0 ≤ (strtol (trimCopy 32 v)).1 then
    toInt32 (strtol (trimCopy 32 v)).1
  else ((levelNames.find? fun e => streqCi (trimCopy 32 v) e.1).map Prod.snd).getD 0

/-- `build_module_loglevel_env(ewts_id, out, out_sz)`, with the buffer of its caller. -/
def buildModuleLoglevelEnv (ewtsId : Text) : Text :=
  (toupperAll ewtsId ++ text "_LOGLEVEL").take 63

/-- The variable of an id that fits the buffer. -/
theorem buildModuleLoglevelEnv_of_length {ewtsId : Text} (h : ewtsId.length ≤ 54) :
    buildModuleLoglevelEnv ewtsId = toupperAll ewtsId ++ text "_LOGLEVEL" := by
  apply List.take_of_length_le
  rw [List.length_append, toupperAll, List.length_map]
  exact Nat.add_le_add_right h 9

/-- `is_ngen_active()`. -/
def isNgenActive (env : Environ) : Bool := getenv env (text "NGEN_RESULTS_DIR") ≠ []

/-- `level_name_padded(lvl)`. -/
def levelNamePadded (lvl : Int) : Text :=
  if lvl = 10 then text "DEBUG  "
  else if lvl = 15 then text "PERFORM"
  else if lvl = 20 then text "INFO   "
  else if lvl = 30 then text "WARNING"
  else if lvl = 40 then text "SEVERE "
  else if lvl = 50 then text "FATAL  "
  else if lvl = 60 then text "STATUS "
  else text "NOTSET "

/-- Where standalone lines go: `stdout`, or a file that was opened for appending. -/
inductive Sink where
  | stdout
  | file (path : Text)

/-- `ewts_logger_state`. -/
structure LoggerState where
  ewtsId : Text
  ewtsIdPadded : Text
  useNgen : Bool
  initialized : Bool
  enabled : Bool
  level : Int
  file : Option Sink

/-- `pad_ewts_id(st)`: the id column of a line. -/
def padEwtsId (ewtsId : Text) : Text :=
  (toupperAll ewtsId).take 8 ++ List.replicate (8 - ewtsId.length) (ch ' ')

/-- The level that `init_logger_state` finds: of the module, of the process, `INFO`. -/
def initialLevel (env : Environ) (ewtsId : Text) : Int :=
  let own := parseLevel (getenv env (buildModuleLoglevelEnv ewtsId))
  let fallback := parseLevel (getenv env (text "EWTS_LOG_LEVEL"))
  if own ≠ 0 then own else if fallback ≠ 0 then fallback else 20

/-- `init_logger_state(st)`: a state reads the environment once. -/
def initLoggerState (env : Environ) (st : LoggerState) : LoggerState :=
  if st.initialized then st
  else
    { st with
      initialized := true
      ewtsIdPadded := padEwtsId st.ewtsId
      enabled := parseEnabled (getenv env (text "EWTS_ENABLED"))
      level := initialLevel env st.ewtsId }

/-- The key of a logger; without an id it is `EWTS`. A null id counts as an empty one. -/
def loggerKey (ewtsId : Text) : Text :=
  upperCopy 64 (if cStr ewtsId = [] then text "EWTS" else ewtsId)

/-- A state as `get_logger_state` allocates it; `ewts_id` has 64 bytes. -/
def LoggerState.alloc (key : Text) (ewtsNgen : Bool) : LoggerState where
  ewtsId := key.take 63
  ewtsIdPadded := []
  useNgen := ewtsNgen
  initialized := false
  enabled := true
  level := 20
  file := none

/-- Write to the first state of this id. -/
def storeState (st : LoggerState) : List LoggerState → List LoggerState
  | [] => []
  | s :: loggers => if s.ewtsId = st.ewtsId then st :: loggers else s :: storeState st loggers

/-- `get_logger_state(ewts_id, ewts_ngen)`: the state, and the list with it. -/
def getLoggerState (env : Environ) (loggers : List LoggerState) (ewtsId : Text) (ewtsNgen : Bool) :
    LoggerState × List LoggerState :=
  match loggers.find? fun st => st.ewtsId = loggerKey ewtsId with
  | some st =>
    let st := initLoggerState env { st with useNgen := st.useNgen || ewtsNgen }
    (st, storeState st loggers)
  | none =>
    let st := initLoggerState env (.alloc (loggerKey ewtsId) ewtsNgen)
    (st, st :: loggers)

/-- The first call with an id initialises its state. -/
theorem getLoggerState_new {env : Environ} {loggers : List LoggerState} {ewtsId : Text}
    (h : ∀ st ∈ loggers, st.ewtsId ≠ loggerKey ewtsId) (ewtsNgen : Bool) :
    (getLoggerState env loggers ewtsId ewtsNgen).1 =
      initLoggerState env (.alloc (loggerKey ewtsId) ewtsNgen) := by
  have hnone : loggers.find? (fun st => st.ewtsId = loggerKey ewtsId) = none := by
    rw [List.find?_eq_none]
    exact fun st hst => by simpa using h st hst
  rw [getLoggerState, hnone]

/-- A key fits the field of a state. -/
@[simp] theorem take_loggerKey (ewtsId : Text) : (loggerKey ewtsId).take 63 = loggerKey ewtsId := by
  apply List.take_of_length_le
  exact (List.length_take_le ..)

/-- `strtok_r(msg, "\n", ..)` until it is exhausted: the nonempty lines. -/
def strtokLines (line : Text) : Text → List Text
  | [] => if line = [] then [] else [line]
  | c :: s =>
    if c = ch '\n' then (if line = [] then [] else [line]) ++ strtokLines [] s
    else strtokLines (line ++ [c]) s

/-- What was read of a line stands in front of its rest. -/
theorem strtokLines_append {line : Text} (h : ch '\n' ∉ line) (s : Text) :
    strtokLines line s = (physicalLines (line ++ s)).filter (· ≠ []) := by
  have hown (line : Text) : (if line = [] then [] else [line]) = [line].filter (· ≠ []) := by
    by_cases hline : line = [] <;> simp [hline]
  induction s generalizing line with
  | nil =>
    rw [strtokLines, List.append_nil, physicalLines_of_not_mem h]
    by_cases hline : line = [] <;> simp [hline]
  | cons c s ih =>
    rw [strtokLines]
    split
    · rename_i hc
      rw [hc, physicalLines_cons h, ih List.not_mem_nil, hown, List.nil_append,
        ← List.filter_append, List.singleton_append]
    · rename_i hc
      have hline : ch '\n' ∉ line ++ [c] := by
        rw [List.mem_append, List.mem_singleton, not_or]
        exact ⟨h, Ne.symm hc⟩
      rw [ih hline, List.append_assoc, List.singleton_append]

/-- `strtok_r` finds the lines that are not empty. -/
theorem strtokLines_eq (msg : Text) : strtokLines [] msg = (physicalLines msg).filter (· ≠ []) :=
  strtokLines_append List.not_mem_nil msg

/-- The lines of a standalone message; a message without lines is logged as one. -/
def standaloneLines (now : Timestamp) (padded : Text) (level : Int) (msg : Text) : List Text :=
  let head := now.iso ++ ch ' ' :: padded ++ ch ' ' :: levelNamePadded level
  if strtokLines [] msg = [] then [head ++ [ch '\n']]
  else (strtokLines [] msg).map fun line => head ++ ch ' ' :: line ++ [ch '\n']

/-- `open_standalone_file(st)`: a path that does not fit its buffer is shortened, and one
that cannot be opened falls back to `stdout`. -/
def openStandaloneFile (env : Environ) (opens : Text → Bool) (now : Timestamp)
    (st : LoggerState) : LoggerState :=
  match st.file with
  | some _ => st
  | none =>
    let dir := getenv env (text "EWTS_LOG_DIR")
    if dir = [] then { st with file := some .stdout }
    else
      let long := dir.take 1023 ++ ch '/' :: st.ewtsId ++ ch '_' :: now.compact ++ text ".log"
      let short := dir.take 1023 ++ ch '/' :: st.ewtsId ++ text ".log"
      let path := if long.length < 1024 then long else short
      if path.length < 1024 ∧ opens path then { st with file := some (.file path) }
      else { st with file := some .stdout }

/-- What a message leads to. -/
inductive Output where
  /-- A call of `ewts_ngen_log`. -/
  | bridge (ewtsId : Text) (level : Int) (message : Text)
  /-- Lines written to the file of the state. -/
  | standalone (file : Option Sink) (lines : List Text)

/-- What `v_log_with_state` does with a formatted message; `linked` tells whether `ewts_ngen_log`
is linked in. -/
def vLogWithState (env : Environ) (linked : Bool) (opens : Text → Bool) (now : Timestamp)
    (st : LoggerState) (level : Int) (msg : Text) : Option Output × LoggerState :=
  if st.enabled = false ∨ level < st.level then (none, st)
  else if st.useNgen && isNgenActive env && linked then (some (.bridge st.ewtsId level msg), st)
  else
    let st := openStandaloneFile env opens now st
    (some (.standalone st.file (standaloneLines now st.ewtsIdPadded level msg)), st)

/-- `v_log_with_state(st, level, fmt, ap)`: behind the filter the format is expanded, and a text
that cannot be formatted is dropped. -/
def vLogFormat (expand : Text → Option Text) (env : Environ) (linked : Bool)
    (opens : Text → Bool) (now : Timestamp) (st : LoggerState) (level : Int) (fmt : Text) :
    Option Output × LoggerState :=
  if st.enabled = false ∨ level < st.level then (none, st)
  else match vsnprintf expand (cStr fmt) with
    | none => (none, st)
    | some msg => vLogWithState env linked opens now st level msg

/-- A message is passed on exactly when the state is enabled and its level is reached. -/
theorem vLogWithState_ne_none_iff {env : Environ} {linked : Bool} {opens : Text → Bool}
    {now : Timestamp} {st : LoggerState} {level : Int} {msg : Text} :
    (vLogWithState env linked opens now st level msg).1 ≠ none ↔
      st.enabled = true ∧ st.level ≤ level := by
  unfold vLogWithState
  split
  · rename_i h
    refine iff_of_false (not_not.mpr rfl) ?_
    rintro ⟨hon, hle⟩
    rcases h with h | h
    · rw [hon] at h
      cases h
    · omega
  · rename_i h
    refine iff_of_true ?_ ?_
    · split <;> simp
    · rw [not_or, Bool.not_eq_false] at h
      exact ⟨h.1, Int.not_lt.mp h.2⟩

/-- An enabled bridged state forwards exactly the messages that reach its level. -/
theorem vLogWithState_bridge_iff {env : Environ} {st : LoggerState} (opens : Text → Bool)
    (now : Timestamp) (level : Int) (msg : Text) (henabled : st.enabled = true)
    (huse : st.useNgen = true) (hactive : isNgenActive env = true) :
    (vLogWithState env true opens now st level msg).1 = some (.bridge st.ewtsId level msg) ↔
      st.level ≤ level := by
  rw [vLogWithState]
  by_cases hlt : level < st.level
  · simp only [hlt, or_true, ite_true, reduceCtorEq, false_iff]
    omega
  · simp only [henabled, hlt, hactive, huse, Bool.true_eq_false, or_self, ite_false,
      Bool.and_self, ite_true, true_iff]
    omega

/-- Formatting has no effect of its own, so that the filter may as well follow it. -/
theorem vLogFormat_eq (expand : Text → Option Text) (env : Environ) (linked : Bool)
    (opens : Text → Bool) (now : Timestamp) (st : LoggerState) (level : Int) (fmt : Text) :
    vLogFormat expand env linked opens now st level fmt =
      (vsnprintf expand (cStr fmt)).elim (none, st)
        (vLogWithState env linked opens now st level) := by
  unfold vLogFormat
  cases vsnprintf expand (cStr fmt) with
  | none => exact ite_self _
  | some msg =>
    split
    · rename_i hfiltered
      rw [Option.elim_some, vLogWithState, if_pos hfiltered]
    · rfl

/-- What a call meets outside the library. -/
structure Host where
  env : Environ
  now : Timestamp
  /-- Whether `ewts_ngen_log` is linked in. -/
  linked : Bool
  /-- Whether a file can be opened for appending. -/
  opens : Text → Bool

/-- `EwtsInit(ewts_id, ewts_ngen)`. -/
def ewtsInit (host : Host) (loggers : List LoggerState) (ewtsId : Text) (ewtsNgen : Bool) :
    List LoggerState :=
  (getLoggerState host.env loggers ewtsId ewtsNgen).2

/-- `EwtsLogModule(ewts_id, level, fmt, ..)` on a formatted message, `none` for a null format
or one that cannot be formatted. -/
def ewtsLogModule (host : Host) (loggers : List LoggerState) (ewtsId : Text) (level : Int)
    (msg : Option Text) : Option Output × List LoggerState :=
  let (st, loggers) := getLoggerState host.env loggers ewtsId false
  match msg with
  | none => (none, loggers)
  | some msg =>
    let (output, st) := vLogWithState host.env host.linked host.opens host.now st level msg
    (output, storeState st loggers)

/-- A call with a format passes on what `v_log_with_state` makes of it. -/
theorem ewtsLogModule_vsnprintf (host : Host) (loggers : List LoggerState) (ewtsId : Text)
    (level : Int) (expand : Text → Option Text) (fmt : Text) :
    (ewtsLogModule host loggers ewtsId level (vsnprintf expand (cStr fmt))).1 =
      (vLogFormat expand host.env host.linked host.opens host.now
        (getLoggerState host.env loggers ewtsId false).1 level fmt).1 := by
  rw [vLogFormat_eq, ewtsLogModule]
  cases vsnprintf expand (cStr fmt) <;> rfl

/-- `Log(level, fmt, ..)`. -/
def log (host : Host) (loggers : List LoggerState) (level : Int) (msg : Option Text) :
    Option Output × List LoggerState :=
  ewtsLogModule host loggers (text "EWTS") level msg

/-- `EwtsGetLogLevelModule(ewts_id)`. -/
def ewtsGetLogLevelModule (host : Host) (loggers : List LoggerState) (ewtsId : Text) :
    Int × List LoggerState :=
  let (st, loggers) := getLoggerState host.env loggers ewtsId false
  (st.level, loggers)

/-- `EwtsIsLoggingEnabledModule(ewts_id)`. -/
def ewtsIsLoggingEnabledModule (host : Host) (loggers : List LoggerState) (ewtsId : Text) :
    Bool × List LoggerState :=
  let (st, loggers) := getLoggerState host.env loggers ewtsId false
  (st.enabled, loggers)

/-- An initialised state is the same for every later call, up to the route flag. -/
theorem getLoggerState_again (env env' : Environ) {loggers : List LoggerState} {ewtsId : Text}
    (h : ∀ st ∈ loggers, st.ewtsId ≠ loggerKey ewtsId) (ewtsNgen ewtsNgen' : Bool) :
    (getLoggerState env' (getLoggerState env loggers ewtsId ewtsNgen).2 ewtsId ewtsNgen').1 =
      { initLoggerState env (.alloc (loggerKey ewtsId) ewtsNgen) with
        useNgen := ewtsNgen || ewtsNgen' } := by
  have hnone : loggers.find? (fun st => st.ewtsId = loggerKey ewtsId) = none := by
    rw [List.find?_eq_none]
    exact fun st hst => by simpa using h st hst
  have hnew : (getLoggerState env loggers ewtsId ewtsNgen).2 =
      initLoggerState env (.alloc (loggerKey ewtsId) ewtsNgen) :: loggers := by
    rw [getLoggerState, hnone]
  have hid : (initLoggerState env (.alloc (loggerKey ewtsId) ewtsNgen)).ewtsId =
      loggerKey ewtsId := take_loggerKey ewtsId
  rw [hnew, getLoggerState, List.find?_cons_of_pos (by rw [hid]; exact decide_eq_true rfl)]
  rfl

end Ewts.C
