import Ewts.Correctness.Levels
import Ewts.Runtime.C.Logger

/-!
# The two filters of a bridged module

A C module takes its level from what ngen exported, and ngen filters the message again
by its own map. Together they pass what reaches the configured level, where `NOTSET`
leaves the choice to the module's fallback.
-/

namespace Ewts.Ngen

/-- The level of a module without one of its own: `EWTS_LOG_LEVEL`, then `INFO`. -/
def fallbackLevel (env : Environ) : Int :=
  if C.parseLevel (getenv env (text "EWTS_LOG_LEVEL")) ≠ 0 then
    C.parseLevel (getenv env (text "EWTS_LOG_LEVEL"))
  else 20

/-- What a module makes of a configured level. -/
def moduleThreshold (env : Environ) (level : LogLevel) : Int :=
  if level = .NOTSET then fallbackLevel env else level.value

/-- Exported numbers are read back by the C runtime. -/
theorem parseLevel_decimal (level : LogLevel) :
    C.parseLevel (cStr (decimal level.value)) = level.value := by
  cases level <;> decide

/-- The C runtime keeps a registered id and looks at the variable that ngen exports. -/
theorem registeredId_key {id : Text} (h : id ∈ registeredIds) :
    C.loggerKey id = id ∧ C.buildModuleLoglevelEnv id = levelVariable id := by
  revert id
  decide

/-- A key that is the only one of its id. -/
theorem unique_key {id key : Text}
    (h : kModules.filter (fun e => e.ewtsId = id) = [⟨key, id⟩]) :
    id ∈ registeredIds ∧ envVarIdentFromModuleKey key = id ∧ firstEntry id = some ⟨key, id⟩ := by
  have hmem : ⟨key, id⟩ ∈ kModules :=
    (List.mem_filter.mp (h ▸ List.mem_singleton_self (⟨key, id⟩ : ModuleEntry))).1
  refine ⟨List.mem_map.mpr ⟨_, hmem, rfl⟩, (entry_key _ hmem).2, ?_⟩
  rw [firstEntry, ← List.head?_filter, h, List.head?_cons]

section Bridged

variable {os : Os} {order : HashOrder} {stamp : Timestamp} {env : Environ}
  {files : Text → Option Text} {tree : ConfigTree}

/-- Enabled logging is exported as `1`. -/
theorem afterInit_enabled (hload : configOf os (resultsDir env) = some tree)
    (h : (tree.ewtsEnabled <|> tree.loggingEnabled).getD true = true) :
    getenv (afterInit os order stamp env files).env (text "EWTS_ENABLED") = text "1" := by
  have hother : ∀ a ∈ exports order (policyOf os order .fresh env).moduleLogLevels,
      a.1 ≠ text "EWTS_ENABLED" :=
    exports_ne (policyVariables_suffix _ (by simp [policyVariables]))
  have henabled : (policyOf os order .fresh env).loggingEnabled = true := by
    rw [policyOf_loaded os order env hload]
    exact h
  rw [getenv, afterInit_env, setEnvVars, Environ.setAll_other hother, Environ.setenv_same,
    henabled]
  rfl

/-- The exported value of an id whose only registry key is configured. -/
theorem afterInit_exported (hload : configOf os (resultsDir env) = some tree)
    {mods : List (Text × Text)} (hm : tree.modules.getD [] = mods) {id key : Text}
    (hunique : kModules.filter (fun e => e.ewtsId = id) = [⟨key, id⟩]) {level : LogLevel}
    (hconf : configured mods key = some level)
    (hsame : ∀ kv ∈ mods, resolvesTo id kv → configured mods (trim kv.1) = some level) :
    (afterInit os order stamp env files).env (levelVariable id) = some (decimal level.value) := by
  obtain ⟨hid, hident, hfirst⟩ := unique_key hunique
  rw [afterInit_env, policyOf_loaded os order env hload]
  refine setEnvVars_level (registeredIds_ne_nil hid) ⟨key, level, ?_, hident⟩
    fun k level' hl hk => load_levels_agree hm hsame ?_ hl hk
  · rw [lookup_load .fresh _ hm rfl, hconf, Option.some_or]
  · -- `ngen` is the only key of its id, and it is configured.
    rintro rfl hnone
    rw [firstEntry_ngen] at hfirst
    cases hfirst
    rw [hconf] at hnone
    cases hnone

/-- The level that a module of this id then starts with. -/
theorem initialLevel_afterInit {id : Text} (hid : id ∈ registeredIds) {level : LogLevel}
    (h : (afterInit os order stamp env files).env (levelVariable id) =
      some (decimal level.value)) :
    C.initialLevel (afterInit os order stamp env files).env id = moduleThreshold env level := by
  have hfallback : getenv (afterInit os order stamp env files).env (text "EWTS_LOG_LEVEL") =
      getenv env (text "EWTS_LOG_LEVEL") :=
    afterInit_getenv_other _ _ _ _ _ (policyVariables_suffix _ (by simp [policyVariables]))
      (by decide)
  have hown : C.parseLevel (getenv (afterInit os order stamp env files).env (levelVariable id)) =
      level.value := by
    rw [getenv, h, Option.getD_some, parseLevel_decimal]
  have hzero : (level.value : Int) ≠ 0 ↔ level ≠ .NOTSET := by
    cases level <;> decide
  simp only [C.initialLevel, (registeredId_key hid).2, hown, hfallback, moduleThreshold,
    fallbackLevel, hzero]
  by_cases hn : level = .NOTSET
  · simp only [hn, ne_eq, not_true_eq_false, ite_true, ite_false]
  · simp only [hn, ne_eq, not_false_eq_true, ite_true, ite_false]

/-- The C runtime sees the inherited results directory. -/
theorem isNgenActive_afterInit :
    C.isNgenActive (afterInit os order stamp env files).env = true ↔ resultsDir env ≠ [] := by
  have hdir : getenv (afterInit os order stamp env files).env (text "NGEN_RESULTS_DIR") =
      resultsDir env :=
    afterInit_getenv_other _ _ _ _ _ (policyVariables_suffix _ (by simp [policyVariables]))
      (by decide)
  rw [C.isNgenActive, hdir, decide_eq_true_eq]

/-- With a configuration the bridge is active. -/
theorem afterInit_active (hload : configOf os (resultsDir env) = some tree) :
    C.isNgenActive (afterInit os order stamp env files).env = true := by
  rw [isNgenActive_afterInit]
  intro hnil
  rw [hnil, configOf, findConfigFileFromPath, if_pos rfl] at hload
  cases hload

end Bridged

/-- With one level for all configured keys of an id, a message of a bridged module passes
the filter of the C runtime and that of ngen exactly when it reaches that level; for
`NOTSET` it has to reach the module's fallback. -/
theorem two_stage_filter_iff (os : Os) (order : HashOrder) (stamp : Timestamp) (env : Environ)
    (files : Text → Option Text) {tree : ConfigTree} {mods : List (Text × Text)}
    (hload : configOf os (resultsDir env) = some tree) (hmods : tree.modules = some mods)
    (henabled : (tree.ewtsEnabled <|> tree.loggingEnabled).getD true = true) {id key : Text}
    (hunique : kModules.filter (fun e => e.ewtsId = id) = [⟨key, id⟩])
    (hkey : ∃ kv ∈ mods, trim kv.1 = key) {configuredLevel : LogLevel}
    (hsame : ∀ kv ∈ mods, resolvesTo id kv → configured mods (trim kv.1) = some configuredLevel)
    (loggers : List C.LoggerState) (hnew : ∀ st ∈ loggers, st.ewtsId ≠ id)
    (opens : Text → Bool) (now : Timestamp) (level : LogLevel) (msg : Text) (clock : Clock) :
    let p := afterInit os order stamp env files
    let st := (C.getLoggerState p.env loggers id true).1
    ((C.vLogWithState p.env true opens now st level.value msg).1 =
        some (.bridge id level.value msg) ∧
      p.logger.passes ⟨id, level.value, msg, clock⟩ = true) ↔
      moduleThreshold env configuredLevel ≤ level.value := by
  obtain ⟨hid, hident, hfirst⟩ := unique_key hunique
  obtain ⟨hlogger, _⟩ := registeredId_key hid
  have hm : tree.modules.getD [] = mods := by rw [hmods, Option.getD_some]
  have hconf : configured mods key = some configuredLevel := by
    obtain ⟨kv, hkv, rfl⟩ := hkey
    exact hsame kv hkv hident
  intro p st
  have hpasses : p.logger.passes ⟨id, level.value, msg, clock⟩ = true ↔
      configuredLevel.value ≤ level.value := by
    rw [Logger.passes, afterInit_filter, policyOf_loaded os order env hload,
      effectiveLevel_load _ hm, firstKeyLevel, hfirst, Option.bind_some, hconf, Option.getD_some,
      decide_eq_true_eq, Int.ofNat_le]
  have hstate : st = C.initLoggerState p.env (.alloc id true) := by
    have hinit : st = C.initLoggerState p.env (.alloc (C.loggerKey id) true) :=
      C.getLoggerState_new (by rwa [hlogger]) true
    rwa [hlogger] at hinit
  have hown : st.ewtsId = id ∧ st.useNgen = true ∧ st.level = C.initialLevel p.env id ∧
      st.enabled = C.parseEnabled (getenv p.env (text "EWTS_ENABLED")) := by
    have htake : id.take 63 = id := by rw [← hlogger, C.take_loggerKey]
    rw [hstate]
    refine ⟨htake, rfl, ?_, rfl⟩
    change C.initialLevel p.env (id.take 63) = _
    rw [htake]
  have hlevel : st.level = moduleThreshold env configuredLevel := by
    rw [hown.2.2.1]
    exact initialLevel_afterInit hid (afterInit_exported hload hm hunique hconf hsame)
  have hon : st.enabled = true := by
    rw [hown.2.2.2, afterInit_enabled hload henabled]
    decide
  have hbridge : (C.vLogWithState p.env true opens now st level.value msg).1 =
      some (.bridge id level.value msg) ↔ st.level ≤ level.value := by
    have hactive : C.isNgenActive p.env = true := afterInit_active hload
    have hiff := C.vLogWithState_bridge_iff opens now level.value msg hon hown.2.1 hactive
    rwa [hown.1] at hiff
  rw [hbridge, hpasses, hlevel, moduleThreshold]
  by_cases hn : configuredLevel = .NOTSET
  · rw [if_pos hn, hn]
    exact and_iff_left (Nat.zero_le _)
  · rw [if_neg hn, Int.ofNat_le]
    exact and_self_iff

theorem two_stage_filter_pet :
    let p := afterInit (levelsOs [(text "pet", text "warn")]) insertionOrder default runEnv
      fun _ => none
    let st := (C.getLoggerState p.env [] (text "PET") true).1
    (C.vLogWithState p.env true (fun _ => true) default st 30 (text "dry")).1 =
        some (.bridge (text "PET") 30 (text "dry")) ∧
      p.logger.passes ⟨text "PET", 30, text "dry", default⟩ = true := by
  have hunique : kModules.filter (fun e => e.ewtsId = text "PET") =
      [⟨text "pet", text "PET"⟩] := by decide
  have hkey : ∃ kv ∈ [(text "pet", text "warn")], trim kv.1 = text "pet" := by decide
  have hsame : ∀ kv ∈ [(text "pet", text "warn")], resolvesTo (text "PET") kv →
      configured [(text "pet", text "warn")] (trim kv.1) = some .WARNING := by
    unfold resolvesTo
    decide
  exact (two_stage_filter_iff (levelsOs [(text "pet", text "warn")]) insertionOrder default runEnv
    (fun _ => none) (configOf_levelsOs _) rfl rfl hunique hkey hsame [] (by simp) (fun _ => true)
    default .WARNING (text "dry") default).mpr (by decide)

/-- `notset` denotes 0, yet a debug message does not pass: the module falls back to `INFO`. -/
theorem notset_falls_back :
    let p := afterInit (levelsOs [(text "pet", text "notset")]) insertionOrder default runEnv
      fun _ => none
    let st := (C.getLoggerState p.env [] (text "PET") true).1
    levelOfValue (text "notset") = .NOTSET ∧ LogLevel.NOTSET.value ≤ LogLevel.DEBUG.value ∧
      (C.vLogWithState p.env true (fun _ => true) default st LogLevel.DEBUG.value
        (text "dry")).1 = none := by
  simp only [afterInit_env, policyOf_loaded _ _ _ (configOf_levelsOs _)]
  refine ⟨by decide, by decide, ?_⟩
  rw [C.vLogWithState, if_pos]
  decide

end Ewts.Ngen
