import Ewts.Integration.Ngen.Log

/-!
# What initialisation establishes

The level of every key after a configuration was read, the value that the environment
then has under `<ID>_LOGLEVEL`, and the threshold of an id, all in terms of the members
of the `modules` section.
-/

namespace Ewts.Ngen

/-- The level that a `modules` section gives a key: that of its last member. -/
def configured (mods : List (Text × Text)) (key : Text) : Option LogLevel :=
  (mods.reverse.find? fun kv => trim kv.1 = key).map fun kv => levelOfValue (trim kv.2)

/-- The level of the first registry key of an id, `INFO` when it is not configured. -/
def firstKeyLevel (mods : List (Text × Text)) (id : Text) : LogLevel :=
  ((firstEntry id).bind fun e => configured mods e.key).getD .INFO

/-- The members whose key stands for an id. -/
def resolvesTo (id : Text) (kv : Text × Text) : Prop := envVarIdentFromModuleKey (trim kv.1) = id

/-! ## The level map -/

/-- The last member with a key decides over what the map held before. -/
theorem lookup_configure (mods : List (Text × Text)) (m : LevelMap) (key : Text) :
    (mods.foldl LevelMap.configure m).lookup key = (configured mods key).or (m.lookup key) := by
  induction mods generalizing m with
  | nil => rfl
  | cons kv mods ih =>
    rw [List.foldl_cons, ih, configured, configured, List.reverse_cons, List.find?_append]
    cases List.find? (fun kv => decide (trim kv.1 = key)) mods.reverse with
    | some x => rfl
    | none =>
      simp only [Option.map_none, Option.none_or, List.find?_singleton]
      by_cases hkey : trim kv.1 = key
      · simp only [hkey, decide_true, ite_true, Option.map_some, Option.some_or]
        rw [LevelMap.configure, hkey, AList.lookup_insert]
      · simp only [hkey, decide_false, Bool.false_eq_true, ite_false, Option.map_none,
          Option.none_or]
        exact AList.lookup_insert_ne (Ne.symm hkey)

/-- Every key of a section is configured. -/
theorem exists_configured {mods : List (Text × Text)} {kv : Text × Text} (h : kv ∈ mods) :
    ∃ level, configured mods (trim kv.1) = some level := by
  have hfind : (mods.reverse.find? fun x => trim x.1 = trim kv.1).isSome := by
    rw [List.find?_isSome]
    exact ⟨kv, List.mem_reverse.mpr h, by simp⟩
  obtain ⟨x, hx⟩ := Option.isSome_iff_exists.mp hfind
  exact ⟨_, by rw [configured, hx, Option.map_some]⟩

/-- Only keys of the section are configured. -/
theorem mem_of_configured {mods : List (Text × Text)} {key : Text} {level : LogLevel}
    (h : configured mods key = some level) : ∃ kv ∈ mods, trim kv.1 = key := by
  obtain ⟨x, hx, _⟩ := Option.map_eq_some_iff.mp h
  exact ⟨x, List.mem_reverse.mp (List.mem_of_find?_eq_some hx), by simpa using List.find?_some hx⟩

/-- The keys of a loaded policy: those of the section, and `ngen` at `INFO`. -/
theorem lookup_load (lg : Logger) (env : Environ) {tree : ConfigTree} {mods : List (Text × Text)}
    (hm : tree.modules.getD [] = mods) (hempty : lg.moduleLogLevels = ∅) (key : Text) :
    (lg.load env tree).moduleLogLevels.lookup key =
      (configured mods key).or (if key = moduleKey then some .INFO else none) := by
  rw [Logger.load, hm, lookup_configure, hempty]
  congr 1
  split
  · rename_i hkey
    rw [hkey, AList.lookup_insert]
  · rename_i hkey
    rw [AList.lookup_insert_ne hkey, AList.lookup_empty]

/-- A key that is prepopulated, or has the level already, ends up with it. -/
theorem lookup_prepopulate {level : LogLevel} {keys : List Text} {m : LevelMap} {key : Text}
    (hne : key ≠ []) (h : key ∈ keys ∨ m.lookup key = some level) :
    (keys.foldl (LevelMap.prepopulate level) m).lookup key = some level := by
  induction keys generalizing m with
  | nil => exact h.resolve_left (by simp)
  | cons k keys ih =>
    apply ih
    rw [LevelMap.prepopulate]
    by_cases hk : key = k
    · right
      rw [← hk, if_neg hne, AList.lookup_insert]
    · rcases h with h | h
      · exact Or.inl ((List.mem_cons.mp h).resolve_left hk)
      · right
        split
        · exact h
        · rw [AList.lookup_insert_ne hk, h]

/-- Without a configuration every registered key has the default level. -/
theorem lookup_useDefaults (lg : Logger) (level : LogLevel) :
    ∀ e ∈ kModules, (lg.useDefaults level).moduleLogLevels.lookup e.key = some level := by
  intro e he
  rw [Logger.useDefaults]
  by_cases hkey : e.key = moduleKey
  · rw [hkey, AList.lookup_insert]
  · rw [AList.lookup_insert_ne hkey]
    exact lookup_prepopulate (entry_key e he).1 (Or.inl (List.mem_map_of_mem he))

/-! ## The environment -/

/-- The variables that ngen reads or sets beside the level variables. -/
def policyVariables : List Text :=
  [text "EWTS_USE_NGEN_BRIDGE", text "EWTS_ENABLED", text "EWTS_RANK", text "EWTS_LOG_LEVEL",
    text "NGEN_RESULTS_DIR"]

/-- No variable of the policy is the level of a module. -/
theorem policyVariables_suffix : ∀ name ∈ policyVariables, ¬ text "_LOGLEVEL" <:+ name := by
  decide

/-- Names that do not end like a level variable are none. -/
theorem levelVariable_ne {id name : Text} (h : ¬ text "_LOGLEVEL" <:+ name) :
    name ≠ levelVariable id := by
  rintro rfl
  exact h (List.suffix_append ..)

/-- A walk meets the entries of the map. -/
theorem HashOrder.mem_walk (order : HashOrder) {m : LevelMap} {key : Text} {level : LogLevel} :
    (⟨key, level⟩ : Σ _ : Text, LogLevel) ∈ order.walk m ↔ m.lookup key = some level := by
  rw [(order.perm m).mem_iff]
  exact AList.mem_lookup_iff.symm

/-- The assignments are those of the keys that stand for an id. -/
theorem mem_exports {order : HashOrder} {m : LevelMap} {a : Text × Text} :
    a ∈ exports order m ↔ ∃ key level, m.lookup key = some level ∧
      envVarIdentFromModuleKey key ≠ [] ∧
      a = (levelVariable (envVarIdentFromModuleKey key), decimal level.value) := by
  simp only [exports, List.mem_filterMap]
  constructor
  · rintro ⟨⟨key, level⟩, hmem, h⟩
    by_cases hid : envVarIdentFromModuleKey key = []
    · simp [hid] at h
    · rw [if_neg hid] at h
      exact ⟨key, level, order.mem_walk.mp hmem, hid, (Option.some.inj h).symm⟩
  · rintro ⟨key, level, hlookup, hid, rfl⟩
    exact ⟨⟨key, level⟩, order.mem_walk.mpr hlookup, by rw [if_neg hid]⟩

/-- Only level variables are exported. -/
theorem exports_ne {order : HashOrder} {m : LevelMap} {name : Text}
    (h : ¬ text "_LOGLEVEL" <:+ name) : ∀ a ∈ exports order m, a.1 ≠ name := by
  intro a ha
  obtain ⟨key, level, _, _, rfl⟩ := mem_exports.mp ha
  exact (levelVariable_ne h).symm

/-- An id is exported when some key of the map stands for it. -/
theorem exports_id {order : HashOrder} {m : LevelMap} {id : Text} (hne : id ≠ []) :
    (∃ a ∈ exports order m, a.1 = levelVariable id) ↔
      ∃ key level, m.lookup key = some level ∧ envVarIdentFromModuleKey key = id := by
  constructor
  · rintro ⟨a, ha, hname⟩
    obtain ⟨key, level, hlookup, _, rfl⟩ := mem_exports.mp ha
    exact ⟨key, level, hlookup, levelVariable_injective hname⟩
  · rintro ⟨key, level, hlookup, rfl⟩
    exact ⟨_, mem_exports.mpr ⟨key, level, hlookup, hne, rfl⟩, rfl⟩

/-- Before its first initialisation the map is empty, so nothing is exported. -/
theorem exports_empty (order : HashOrder) : exports order ∅ = [] := by
  have hwalk : order.walk ∅ = [] := (order.perm ∅).eq_nil
  rw [exports, hwalk, List.filterMap_nil]

/-- The clearing pass runs over the empty map: it only removes the two switches. -/
theorem unsetEnvVars_fresh (order : HashOrder) (env : Environ) :
    unsetEnvVars order .fresh env =
      (env.unsetenv (text "EWTS_USE_NGEN_BRIDGE")).unsetenv (text "EWTS_ENABLED") := by
  have hempty : exports order Logger.fresh.moduleLogLevels = [] := exports_empty order
  rw [unsetEnvVars, hempty]
  rfl

/-- Variables that initialisation does not own keep their value until the policy is read. -/
theorem envAtRead_other (os : Os) (order : HashOrder) (env : Environ) {name : Text}
    (h : name ∉ [text "EWTS_USE_NGEN_BRIDGE", text "EWTS_ENABLED", text "EWTS_RANK"]) :
    envAtRead os order .fresh env name = env name := by
  simp only [List.mem_cons, List.not_mem_nil, or_false, not_or] at h
  rw [envAtRead, unsetEnvVars_fresh, setRank]
  cases os.mpiRank with
  | none => simp only [Environ.unsetenv_other _ h.2.1, Environ.unsetenv_other _ h.1]
  | some r =>
    simp only [Environ.setenv_other _ h.2.2, Environ.unsetenv_other _ h.2.1,
      Environ.unsetenv_other _ h.1]

/-- What is cleared and set first leaves the results directory. -/
theorem resultsDir_envAtRead (os : Os) (order : HashOrder) (env : Environ) :
    resultsDir (envAtRead os order .fresh env) = resultsDir env := by
  rw [resultsDir, getenv, envAtRead_other os order env (by decide)]
  rfl

/-- It leaves the default level as well. -/
theorem getDefaultLogLevel_envAtRead (os : Os) (order : HashOrder) (env : Environ) :
    getDefaultLogLevel (envAtRead os order .fresh env) = getDefaultLogLevel env := by
  have h : getenv (envAtRead os order .fresh env) (text "EWTS_LOG_LEVEL") =
      getenv env (text "EWTS_LOG_LEVEL") := by
    rw [getenv, envAtRead_other os order env (by decide)]
    rfl
  simp only [getDefaultLogLevel, h]

/-- Exporting leaves variables alone that are neither switches nor level variables. -/
theorem setEnvVars_other (order : HashOrder) (lg : Logger) (env : Environ) {name : Text}
    (h : name ∉ [text "EWTS_USE_NGEN_BRIDGE", text "EWTS_ENABLED"])
    (hlevel : ∀ a ∈ exports order lg.moduleLogLevels, a.1 ≠ name) :
    setEnvVars order lg env name = env name := by
  simp only [List.mem_cons, List.not_mem_nil, or_false, not_or] at h
  rw [setEnvVars, Environ.setAll_other hlevel, Environ.setenv_other _ h.2,
    Environ.setenv_other _ h.1]

/-! ## After `InitIfNeeded` -/

section After

variable (os : Os) (order : HashOrder) (stamp : Timestamp) (env : Environ)
  (files : Text → Option Text)

/-- A process right after its initialisation. -/
def afterInit : Process := (Process.start env files).initIfNeeded os order stamp

/-- Initialisation reads the policy, exports it and opens the log file. -/
theorem afterInit_eq : afterInit os order stamp env files = Process.setupLogFile
    { Process.start env files with
      initialized := true
      logger := policyOf os order .fresh env
      env := setEnvVars order (policyOf os order .fresh env) (envAtRead os order .fresh env) }
    os stamp (resultsDir env) := by
  rw [afterInit, Process.initIfNeeded, if_neg (by simp [Process.start])]
  exact congrArg (Process.setupLogFile _ os stamp) (resultsDir_envAtRead os order env)

/-- The log file has no influence on the environment. -/
theorem afterInit_env : (afterInit os order stamp env files).env =
    setEnvVars order (policyOf os order .fresh env) (envAtRead os order .fresh env) := by
  rw [afterInit_eq, Process.setupLogFile]
  split <;> rfl

/-- It has none on the filter. -/
theorem afterInit_filter :
    (afterInit os order stamp env files).logger.effectiveLevel =
      (policyOf os order .fresh env).effectiveLevel := by
  rw [afterInit_eq, Process.setupLogFile]
  split <;> rfl

/-- Initialisation leaves the variables alone that it does not own. -/
theorem afterInit_getenv_other {name : Text} (hlevel : ¬ text "_LOGLEVEL" <:+ name)
    (h : name ∉ [text "EWTS_USE_NGEN_BRIDGE", text "EWTS_ENABLED", text "EWTS_RANK"]) :
    getenv (afterInit os order stamp env files).env name = getenv env name := by
  have hswitch : name ∉ [text "EWTS_USE_NGEN_BRIDGE", text "EWTS_ENABLED"] :=
    fun hmem => h (List.mem_of_mem_take (i := 2) hmem)
  rw [getenv, afterInit_env, setEnvVars_other _ _ _ hswitch (exports_ne hlevel),
    envAtRead_other _ _ _ h, ← getenv]

end After

/-- The policy of a loaded configuration. -/
theorem policyOf_loaded (os : Os) (order : HashOrder) (env : Environ) {tree : ConfigTree}
    (hload : configOf os (resultsDir env) = some tree) :
    policyOf os order .fresh env = Logger.fresh.load (envAtRead os order .fresh env) tree := by
  rw [policyOf, Logger.readPolicy_eq, resultsDir_envAtRead, hload]
  rfl

/-- The policy without a configuration. -/
theorem policyOf_default (os : Os) (order : HashOrder) (env : Environ)
    (hload : configOf os (resultsDir env) = none) :
    policyOf os order .fresh env = Logger.fresh.useDefaults (getDefaultLogLevel env) := by
  rw [policyOf, Logger.readPolicy_eq, resultsDir_envAtRead, hload,
    getDefaultLogLevel_envAtRead]
  rfl

/-- The key of ngen itself is the only one of its id. -/
theorem moduleKey_mem : ⟨moduleKey, text "NGEN"⟩ ∈ kModules := by
  decide

theorem firstEntry_moduleKey : firstEntry (text "NGEN") = some ⟨moduleKey, text "NGEN"⟩ := by
  decide

/-- The threshold of an id is the level of its first registry key. -/
theorem effectiveLevel_load (env : Environ) {tree : ConfigTree} {mods : List (Text × Text)}
    (hm : tree.modules.getD [] = mods) (id : Text) :
    (Logger.fresh.load env tree).effectiveLevel id = firstKeyLevel mods id := by
  have hngen := firstEntry_moduleKey
  rw [Logger.effectiveLevel, firstKeyLevel]
  cases hfirst : firstEntry id with
  | none =>
    have hid : id ≠ (Logger.fresh.load env tree).ewtsId := by
      rintro rfl
      exact absurd (hfirst.symm.trans hngen) (by simp)
    simp only [Option.bind_none, if_neg hid]
    rfl
  | some e =>
    have hid : e.ewtsId = id := by simpa using List.find?_some hfirst
    have hmem := List.mem_of_find?_eq_some hfirst
    have hlookup := lookup_load Logger.fresh env hm rfl e.key
    simp only [Option.bind_some, if_neg (entry_key e hmem).1]
    cases hconf : configured mods e.key with
    | some level =>
      rw [hconf, Option.some_or] at hlookup
      simp only [hlookup, Option.getD_some]
    | none =>
      rw [hconf, Option.none_or] at hlookup
      by_cases hkey : e.key = moduleKey
      · rw [if_pos hkey] at hlookup
        simp only [hlookup, Option.getD_none]
      · have hid' : id ≠ (Logger.fresh.load env tree).ewtsId := by
          rintro rfl
          rw [show (Logger.fresh.load env tree).ewtsId = text "NGEN" from rfl, hngen] at hfirst
          exact hkey (by rw [← Option.some.inj hfirst])
        rw [if_neg hkey] at hlookup
        simp only [hlookup, if_neg hid', Option.getD_none]

/-- A value on which all keys of an id agree is exported, in any order of the map. -/
theorem setEnvVars_level {order : HashOrder} {lg : Logger} {env : Environ} {id : Text}
    {level : LogLevel} (hne : id ≠ [])
    (hex : ∃ key level, lg.moduleLogLevels.lookup key = some level ∧
      envVarIdentFromModuleKey key = id)
    (hall : ∀ key level', lg.moduleLogLevels.lookup key = some level' →
      envVarIdentFromModuleKey key = id → level' = level) :
    setEnvVars order lg env (levelVariable id) = some (decimal level.value) := by
  refine Environ.setAll_of_agree ((exports_id hne).mpr hex) fun a ha hname => ?_
  obtain ⟨key, level', hlookup, _, rfl⟩ := mem_exports.mp ha
  rw [hall key level' hlookup (levelVariable_injective hname)]

/-- The first key with the id of ngen is its own. -/
theorem firstEntry_ngen : firstEntry (envVarIdentFromModuleKey moduleKey) =
    some ⟨moduleKey, text "NGEN"⟩ := by
  rw [(entry_key _ moduleKey_mem).2, firstEntry_moduleKey]

/-- In a loaded map all keys of an id have one level when the configured ones do; only
`ngen` is there without being configured, at the level `INFO`. -/
theorem load_levels_agree {env : Environ} {tree : ConfigTree} {mods : List (Text × Text)}
    (hm : tree.modules.getD [] = mods) {id : Text} {level : LogLevel}
    (h : ∀ kv ∈ mods, resolvesTo id kv → configured mods (trim kv.1) = some level)
    (hngen : envVarIdentFromModuleKey moduleKey = id → configured mods moduleKey = none →
      level = .INFO) {key : Text} {level' : LogLevel}
    (hl : (Logger.fresh.load env tree).moduleLogLevels.lookup key = some level')
    (hkey : envVarIdentFromModuleKey key = id) : level' = level := by
  rw [lookup_load .fresh env hm rfl] at hl
  cases hconf : configured mods key with
  | some level'' =>
    obtain ⟨kv, hkv, rfl⟩ := mem_of_configured hconf
    rw [h kv hkv hkey, Option.some_or] at hl
    exact (Option.some.inj hl).symm
  | none =>
    rw [hconf, Option.none_or] at hl
    split at hl
    · rename_i hmod
      rw [hmod] at hkey hconf
      rw [hngen hkey hconf]
      exact (Option.some.inj hl).symm
    · cases hl

/-- A configuration file in the results directory itself is taken. -/
theorem configOf_here {os : Os} {dir : Text} (hdir : dir ≠ [])
    (h : os.fileExists (joinPath dir configFilename) = true) :
    configOf os dir = os.readJson (joinPath dir configFilename) := by
  rw [configOf, findConfigFileFromPath, if_neg hdir, if_pos h, Option.bind_some]

/-! ## A host to evaluate on -/

/-- A host whose `ngen_logging.json` gives these levels. -/
def levelsOs (mods : List (Text × Text)) : Os where
  fileExists _ := true
  readJson _ := some ⟨none, none, none, some mods⟩
  mpiRank := none
  opens _ := true

/-- An environment with a results directory. -/
def runEnv : Environ := fun name =>
  if name = text "NGEN_RESULTS_DIR" then some (text "/run") else none

/-- An environment with a log directory only. -/
def logDirEnv : Environ := Environ.setenv (fun _ => none) (text "EWTS_LOG_DIR") (text "/run")

/-- The order in which the entries were inserted. -/
def insertionOrder : HashOrder := ⟨AList.entries, fun _ => .refl _⟩

theorem configOf_levelsOs (mods : List (Text × Text)) :
    configOf (levelsOs mods) (resultsDir runEnv) = some ⟨none, none, none, some mods⟩ :=
  configOf_here (by decide) rfl

end Ewts.Ngen
