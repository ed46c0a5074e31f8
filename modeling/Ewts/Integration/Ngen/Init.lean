import Ewts.Core.Files
import Ewts.Core.Timestamp
import Ewts.Integration.Ngen.Level
import Ewts.Integration.Ngen.Registry
import Mathlib.Data.List.AList

/-!
# Initialisation of the ngen logger

The logger reads its policy once, from `ngen_logging.json` under the results
directory or a parent of it, exports it to the environment for the modules, and
opens the unified log file. Notices about this on standard output are left out.
-/

namespace Ewts.Ngen

/-- Stable keys with their levels, `std::unordered_map<std::string, LogLevel>`. -/
abbrev LevelMap := AList fun _ : Text => LogLevel

/-- The order in which an `unordered_map` is walked: any arrangement of its entries. -/
structure HashOrder where
  walk : LevelMap → List (Σ _ : Text, LogLevel)
  perm : ∀ m, (walk m).Perm m.entries

/-- What the logger looks at in a parsed `ngen_logging.json`. -/
structure ConfigTree where
  ewtsEnabled : Option Bool
  loggingEnabled : Option Bool
  splitLogsByModule : Option Bool
  modules : Option (List (Text × Text))

/-- What the process finds outside itself; `readJson` is `none` on a malformed file, and
the MPI state is taken to be the same during the whole run. -/
structure Os where
  fileExists : Text → Bool
  readJson : Text → Option ConfigTree
  mpiRank : Option Nat
  opens : Text → Bool

/-- The state of the `Logger` singleton. A stream is there when it is open. -/
structure Logger where
  loggingEnabled : Bool
  splitLogsByModule : Bool
  logFile : Option OutStream
  logFileDir : Text
  logFilePath : Text
  ewtsId : Text
  logLevel : LogLevel
  moduleLogLevels : LevelMap
  payloadFile : Option OutStream
  payloadFilePath : Text

/-- The constant member `moduleKey`. -/
def moduleKey : Text := text "ngen"

/-- The process: the singleton, its `once_flag`, the static stream map of split mode, the
environment, the disk and what was logged to standard output. -/
structure Process where
  initialized : Bool
  logger : Logger
  splitLogFiles : AList fun _ : Text => Option OutStream
  env : Environ
  disk : Disk
  stdout : Text

/-- A singleton that was not used yet. -/
def Logger.fresh : Logger where
  loggingEnabled := true
  splitLogsByModule := false
  logFile := none
  logFileDir := []
  logFilePath := []
  ewtsId := text "NGEN"
  logLevel := .INFO
  moduleLogLevels := ∅
  payloadFile := none
  payloadFilePath := []

/-- A process before its first call into the logger. -/
def Process.start (env : Environ) (files : Text → Option Text) : Process where
  initialized := false
  logger := .fresh
  splitLogFiles := ∅
  env := env
  disk := ⟨files, []⟩
  stdout := []

/-! ## Paths -/

/-- `JoinPath(a, b)`. -/
def joinPath (a b : Text) : Text :=
  if a = [] then b
  else if b = [] then a
  else if a.getLast? = some (ch '/') then a ++ b
  else a ++ ch '/' :: b

/-- `GetParentDirName(path)`: what stands before the last slash. -/
def getParentDirName (path : Text) : Text :=
  if (path.rdropWhile (· ≠ ch '/')).length = 1 then text "/"
  else (path.rdropWhile (· ≠ ch '/')).dropLast

/-- `kConfigFilename`. -/
def configFilename : Text := text "ngen_logging.json"

/-- A parent directory has a shorter path. -/
theorem length_getParentDirName {path : Text} (h : getParentDirName path ≠ path)
    (hne : path ≠ []) : (getParentDirName path).length < path.length := by
  have hle : (path.rdropWhile (· ≠ ch '/')).length ≤ path.length :=
    (List.rdropWhile_prefix ..).length_le
  have hpos := List.length_pos_iff.mpr hne
  unfold getParentDirName at h ⊢
  by_cases hone : (path.rdropWhile (· ≠ ch '/')).length = 1
  · rw [if_pos hone] at h ⊢
    -- A path of one character with a slash in it is the root.
    by_contra hlen
    have hlen : (text "/").length = 1 := rfl
    have heq : path.rdropWhile (· ≠ ch '/') = path :=
      (List.rdropWhile_prefix ..).eq_of_length (by omega)
    have hlast := List.rdropWhile_last_not (· ≠ ch '/') path
    obtain ⟨c, rfl⟩ := List.length_eq_one_iff.mp (by omega : path.length = 1)
    rw [heq] at hlast
    have hc : c = ch '/' := by
      by_contra hne
      exact hlast (by simp) (decide_eq_true hne)
    apply h
    rw [hc]
    rfl
  · rw [if_neg hone, List.length_dropLast]
    omega

/-- `FindConfigFileFromPath(path, configPath)`: up the directories to the first file. -/
def findConfigFileFromPath (os : Os) (path : Text) : Option Text :=
  if path = [] then none
  else if os.fileExists (joinPath path configFilename) then some (joinPath path configFilename)
  else if getParentDirName path = [] ∨ getParentDirName path = path then none
  else findConfigFileFromPath os (getParentDirName path)
termination_by path.length
decreasing_by
  rename_i hne _ h
  exact length_getParentDirName (fun he => h (Or.inr he)) hne

/-- The search only asks which files exist. -/
theorem findConfigFileFromPath_congr {os os' : Os} (h : os.fileExists = os'.fileExists)
    (path : Text) : findConfigFileFromPath os path = findConfigFileFromPath os' path := by
  induction path using findConfigFileFromPath.induct os with
  | case1 =>
    rw [findConfigFileFromPath.eq_def os, findConfigFileFromPath.eq_def os']
    rfl
  | case2 path hne hex =>
    rw [findConfigFileFromPath.eq_def os path, findConfigFileFromPath.eq_def os' path, ← h]
    simp only [hne, hex, ite_true, ite_false]
  | case3 path hne hex hend =>
    rw [findConfigFileFromPath.eq_def os path, findConfigFileFromPath.eq_def os' path, ← h]
    simp only [hne, hex, hend, ite_true, ite_false]
  | case4 path hne hex hend ih =>
    rw [findConfigFileFromPath.eq_def os path, findConfigFileFromPath.eq_def os' path, ← h]
    simp only [hne, hex, hend, ite_false, ih]

/-! ## Policy -/

/-- `NGEN_RESULTS_DIR`, empty when unset. -/
def resultsDir (env : Environ) : Text := getenv env (text "NGEN_RESULTS_DIR")

/-- One member of the `modules` section. -/
def LevelMap.configure (m : LevelMap) (kv : Text × Text) : LevelMap :=
  m.insert (trim kv.1) (levelOfValue (trim kv.2))

/-- The policy of a parsed configuration. -/
def Logger.load (lg : Logger) (env : Environ) (tree : ConfigTree) : Logger :=
  let levels := (tree.modules.getD []).foldl LevelMap.configure
    (lg.moduleLogLevels.insert moduleKey .INFO)
  { lg with
    loggingEnabled := (tree.ewtsEnabled <|> tree.loggingEnabled).getD true
    splitLogsByModule := tree.splitLogsByModule.getD false
    moduleLogLevels := levels
    logLevel := (levels.lookup moduleKey).getD (getDefaultLogLevel env) }

/-- The tree that `ReadConfigFromResultsDir` finds and parses. -/
def configOf (os : Os) (dir : Text) : Option ConfigTree :=
  (findConfigFileFromPath os dir).bind os.readJson

/-- One registry key of the defaults; an empty one is passed over. -/
def LevelMap.prepopulate (level : LogLevel) (m : LevelMap) (key : Text) : LevelMap :=
  if key = [] then m else m.insert key level

/-- The defaults of `InitIfNeeded` without a configuration: one level for every key. -/
def Logger.useDefaults (lg : Logger) (level : LogLevel) : Logger :=
  { lg with
    loggingEnabled := true
    splitLogsByModule := false
    moduleLogLevels := ((kModules.map ModuleEntry.key).foldl (LevelMap.prepopulate level)
      ∅).insert moduleKey level
    logLevel := level }

/-- `ReadConfigFromResultsDir(resultsDir)`: the logger it leaves, and its result. -/
def Logger.readConfigFromResultsDir (lg : Logger) (os : Os) (env : Environ) (dir : Text) :
    Logger × Bool :=
  match configOf os dir with
  | some tree => (lg.load env tree, true)
  | none =>
    ({ lg with
      loggingEnabled := true
      splitLogsByModule := false
      moduleLogLevels := lg.moduleLogLevels.insert moduleKey .INFO
      logLevel := .INFO }, false)

/-- Read the configuration when there is a results directory, and fall back to the
defaults when none was loaded. -/
def Logger.readPolicy (lg : Logger) (os : Os) (env : Environ) : Logger :=
  if resultsDir env = [] then lg.useDefaults (getDefaultLogLevel env)
  else if (lg.readConfigFromResultsDir os env (resultsDir env)).2 then
    (lg.readConfigFromResultsDir os env (resultsDir env)).1
  else (lg.readConfigFromResultsDir os env (resultsDir env)).1.useDefaults (getDefaultLogLevel env)

/-- A policy is the configuration that was found, or the defaults. -/
theorem Logger.readPolicy_eq (lg : Logger) (os : Os) (env : Environ) : lg.readPolicy os env =
    match configOf os (resultsDir env) with
    | some tree => lg.load env tree
    | none => lg.useDefaults (getDefaultLogLevel env) := by
  unfold readPolicy readConfigFromResultsDir
  by_cases hdir : resultsDir env = []
  · have hnone : configOf os (resultsDir env) = none := by
      rw [configOf, hdir, findConfigFileFromPath, if_pos rfl, Option.bind_none]
    rw [if_pos hdir, hnone]
  · rw [if_neg hdir]
    cases configOf os (resultsDir env) <;> rfl

/-- The `<ID>_LOGLEVEL` assignments of the map, in hash order. -/
def exports (order : HashOrder) (m : LevelMap) : List (Text × Text) :=
  (order.walk m).filterMap fun kv =>
    if envVarIdentFromModuleKey kv.1 = [] then none
    else some (levelVariable (envVarIdentFromModuleKey kv.1), decimal kv.2.value)

/-- `ConfigureEnvVars(true)`. -/
def setEnvVars (order : HashOrder) (lg : Logger) (env : Environ) : Environ :=
  ((env.setenv (text "EWTS_USE_NGEN_BRIDGE") (text "1")).setenv (text "EWTS_ENABLED")
    (if lg.loggingEnabled then text "1" else text "0")).setAll (exports order lg.moduleLogLevels)

/-- `ConfigureEnvVars(false)`. -/
def unsetEnvVars (order : HashOrder) (lg : Logger) (env : Environ) : Environ :=
  ((env.unsetenv (text "EWTS_USE_NGEN_BRIDGE")).unsetenv (text "EWTS_ENABLED")).unsetAll
    ((exports order lg.moduleLogLevels).map Prod.fst)

/-- `EWTS_RANK` is set under MPI. -/
def setRank (os : Os) (env : Environ) : Environ :=
  match os.mpiRank with
  | none => env
  | some r => env.setenv (text "EWTS_RANK") (decimal r)

/-! ## Log files -/

/-- `PrependLogFilePrefix(baseName)`. -/
def prependLogFilePrefix (env : Environ) (baseName : Text) : Text :=
  if trim (getenv env (text "NGEN_LOG_FILE_PREFIX")) = [] then baseName
  else trim (getenv env (text "NGEN_LOG_FILE_PREFIX")) ++ ch '_' :: baseName

/-- The rank suffix of a file name. -/
def rankPart (os : Os) : Text :=
  match os.mpiRank with
  | none => []
  | some r => text "_mpi_process_" ++ decimal r

/-- The timestamp suffix, without a results directory only. -/
def tsPart (dir : Text) (stamp : Timestamp) : Text :=
  if dir = [] then ch '_' :: stamp.compact else []

/-- The file name of a stem. -/
def logFileName (os : Os) (env : Environ) (dir : Text) (stamp : Timestamp) (stem : Text) : Text :=
  prependLogFilePrefix env stem ++ rankPart os ++ tsPart dir stamp ++ text ".log"

/-- What stands before the stem in a file name. -/
def filePrefix (env : Environ) : Text :=
  if trim (getenv env (text "NGEN_LOG_FILE_PREFIX")) = [] then []
  else trim (getenv env (text "NGEN_LOG_FILE_PREFIX")) ++ [ch '_']

/-- The prefix stands in front of the stem. -/
theorem prependLogFilePrefix_eq (env : Environ) (stem : Text) :
    prependLogFilePrefix env stem = filePrefix env ++ stem := by
  unfold prependLogFilePrefix filePrefix
  split
  · rw [List.nil_append]
  · rw [List.append_assoc, List.singleton_append]

/-- A joined path is its last name behind what the directory fixes. -/
theorem joinPath_frame (dir : Text) : ∃ pre : Text, (∀ c ∈ pre, c ∈ dir ∨ c = ch '/') ∧
    ∀ name, name ≠ [] → joinPath dir name = pre ++ name := by
  by_cases hdir : dir = []
  · exact ⟨[], by simp, fun name _ => by rw [joinPath, if_pos hdir, List.nil_append]⟩
  by_cases hlast : dir.getLast? = some (ch '/')
  · refine ⟨dir, fun c hc => Or.inl hc, fun name hname => ?_⟩
    rw [joinPath, if_neg hdir, if_neg hname, if_pos hlast]
  · refine ⟨dir ++ [ch '/'], fun c hc => ?_, fun name hname => ?_⟩
    · exact (List.mem_append.mp hc).imp_right List.mem_singleton.mp
    · rw [joinPath, if_neg hdir, if_neg hname, if_neg hlast, List.append_assoc,
        List.singleton_append]

/-- Open a path as a C string, truncating the file. -/
def openLog (os : Os) (d : Disk) (path : Text) : Disk × Option OutStream :=
  if os.opens (cStr path) then (d.openTrunc (cStr path), some ⟨cStr path, 0⟩) else (d, none)

/-- The directory of the log files. -/
def logDirOf (env : Environ) (dir : Text) : Text :=
  if dir = [] then getenv env (text "EWTS_LOG_DIR") else dir

/-- `SetupLogFile(resultsDir)`. -/
def Process.setupLogFile (p : Process) (os : Os) (stamp : Timestamp) (dir : Text) : Process :=
  if logDirOf p.env dir = [] ∨ p.logger.splitLogsByModule then
    { p with logger := { p.logger with logFileDir := logDirOf p.env dir, logFilePath := [] } }
  else
    let path := joinPath (logDirOf p.env dir) (logFileName os p.env dir stamp (text "ngen"))
    { p with
      disk := (openLog os p.disk path).1
      logger := { p.logger with
        logFileDir := logDirOf p.env dir
        logFilePath := path
        logFile := (openLog os p.disk path).2 } }

/-- The environment when `InitIfNeeded` reads its policy. -/
def envAtRead (os : Os) (order : HashOrder) (lg : Logger) (env : Environ) : Environ :=
  setRank os (unsetEnvVars order lg env)

/-- The logger once `InitIfNeeded` has its policy. -/
def policyOf (os : Os) (order : HashOrder) (lg : Logger) (env : Environ) : Logger :=
  Logger.readPolicy { lg with ewtsId := (ewtsIdFromKey moduleKey).getD lg.ewtsId } os
    (envAtRead os order lg env)

/-- `InitIfNeeded()`: the body runs once. -/
def Process.initIfNeeded (p : Process) (os : Os) (order : HashOrder) (stamp : Timestamp) :
    Process :=
  if p.initialized then p
  else
    Process.setupLogFile
      { p with
        initialized := true
        logger := policyOf os order p.logger p.env
        env :=
          setEnvVars order (policyOf os order p.logger p.env) (envAtRead os order p.logger p.env) }
      os stamp (resultsDir (envAtRead os order p.logger p.env))

end Ewts.Ngen
