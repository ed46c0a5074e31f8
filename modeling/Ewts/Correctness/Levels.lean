import Ewts.Integration.Ngen.Policy

/-!
# Levels across the process environment

ngen filters by one registry key of an id and exports the levels of all configured keys
that stand for it. The two agree exactly when these keys do. A level variable that was
inherited is overwritten exactly when the configuration mentions its module.
-/

namespace Ewts.Ngen

/-- The exported value of an id is the threshold of its messages. -/
def ExportAgrees (p : Process) (id : Text) : Prop :=
  p.env (levelVariable id) = some (decimal (p.logger.effectiveLevel id).value)

/-- A walk that comes to a given entry last. -/
def HashOrder.visitLast (kv : Σ _ : Text, LogLevel) : HashOrder where
  walk m := if kv ∈ m.entries then m.entries.erase kv ++ [kv] else m.entries
  perm m := by
    split
    · rename_i h
      exact List.perm_append_comm.trans (List.perm_cons_erase h).symm
    · exact List.Perm.refl _

theorem decimal_value_injective {a b : LogLevel} (h : decimal a.value = decimal b.value) :
    a = b := by
  revert h
  cases a <;> cases b <;> decide

/-- The entry that is visited last is exported. -/
theorem setEnvVars_visitLast {lg : Logger} {env : Environ} {key : Text} {level : LogLevel}
    (hlookup : lg.moduleLogLevels.lookup key = some level)
    (hne : envVarIdentFromModuleKey key ≠ []) :
    setEnvVars (.visitLast ⟨key, level⟩) lg env (levelVariable (envVarIdentFromModuleKey key)) =
      some (decimal level.value) := by
  have hmem : (⟨key, level⟩ : Σ _ : Text, LogLevel) ∈ lg.moduleLogLevels.entries :=
    AList.mem_lookup_iff.mp hlookup
  have hexports : ∃ l, exports (.visitLast ⟨key, level⟩) lg.moduleLogLevels =
      l ++ [(levelVariable (envVarIdentFromModuleKey key), decimal level.value)] := by
    simp only [exports, HashOrder.visitLast, if_pos hmem, List.filterMap_append,
      List.filterMap_cons, List.filterMap_nil, if_neg hne]
    exact ⟨_, rfl⟩
  obtain ⟨l, hl⟩ := hexports
  rw [setEnvVars, hl]
  exact Environ.setAll_last _ l _ _

/-- Export and threshold of an id agree in every order of the level map exactly when every
configured key of the id has the level of its first registry key. -/
theorem export_agrees_iff (os : Os) (stamp : Timestamp) (env : Environ)
    (files : Text → Option Text) {tree : ConfigTree} {mods : List (Text × Text)}
    (hload : configOf os (resultsDir env) = some tree) (hmods : tree.modules = some mods)
    {id : Text} (hid : id ∈ registeredIds) (hres : ∃ kv ∈ mods, resolvesTo id kv) :
    (∀ order, ExportAgrees (afterInit os order stamp env files) id) ↔
      ∀ kv ∈ mods, resolvesTo id kv →
        configured mods (trim kv.1) = some (firstKeyLevel mods id) := by
  have hne := registeredIds_ne_nil hid
  have hm : tree.modules.getD [] = mods := by rw [hmods, Option.getD_some]
  have hagree : ∀ order, ExportAgrees (afterInit os order stamp env files) id ↔
      setEnvVars order (Logger.fresh.load (envAtRead os order .fresh env) tree)
        (envAtRead os order .fresh env) (levelVariable id) =
          some (decimal (firstKeyLevel mods id).value) := by
    intro order
    rw [ExportAgrees, afterInit_env, afterInit_filter, policyOf_loaded os order env hload,
      effectiveLevel_load _ hm]
  have hlookup := fun order key => lookup_load .fresh (envAtRead os order .fresh env) hm rfl key
  simp only [hagree]
  constructor
  · -- Visit the key in question last.
    intro h kv hkv hkey
    obtain ⟨level, hlevel⟩ := exists_configured hkv
    let order := HashOrder.visitLast ⟨trim kv.1, level⟩
    have hset : setEnvVars order (Logger.fresh.load (envAtRead os order .fresh env) tree)
        (envAtRead os order .fresh env) (levelVariable (envVarIdentFromModuleKey (trim kv.1))) =
          some (decimal level.value) :=
      setEnvVars_visitLast (by rw [hlookup, hlevel, Option.some_or]) (by rw [hkey]; exact hne)
    rw [hkey, h order] at hset
    rw [hlevel, decimal_value_injective (Option.some.inj hset)]
  · intro h order
    refine setEnvVars_level hne ?_ fun key level hl hkey => load_levels_agree hm h ?_ hl hkey
    · obtain ⟨kv, hkv, hkey⟩ := hres
      exact ⟨trim kv.1, _, by rw [hlookup, h kv hkv hkey, Option.some_or], hkey⟩
    · rintro rfl hconf
      rw [firstKeyLevel, firstEntry_ngen, Option.bind_some, hconf, Option.getD_none]

theorem export_agrees_pet : ExportAgrees
    (afterInit (levelsOs [(text "pet", text "debug")]) insertionOrder default runEnv fun _ => none)
    (text "PET") :=
  (export_agrees_iff (levelsOs [(text "pet", text "debug")]) default runEnv (fun _ => none)
    (configOf_levelsOs _) rfl (by decide)
    ⟨_, List.mem_singleton_self _, by unfold resolvesTo; decide⟩).mpr
    (by unfold resolvesTo; decide) insertionOrder

/-- A key in upper case is exported and not applied: 10 against 20. -/
theorem upper_case_key_disagrees :
    resolvesTo (text "PET") (text "PET", text "debug") ∧
    (afterInit (levelsOs [(text "PET", text "debug")]) insertionOrder default runEnv
      fun _ => none).env (levelVariable (text "PET")) = some (text "10") ∧
    ((afterInit (levelsOs [(text "PET", text "debug")]) insertionOrder default runEnv
      fun _ => none).logger.effectiveLevel (text "PET")).value = 20 := by
  rw [afterInit_env, afterInit_filter, policyOf_loaded _ _ _ (configOf_levelsOs _)]
  unfold resolvesTo
  decide

/-! ## Inherited level variables -/

/-- Environments that differ in the level variables of registered ids only. -/
def AgreeOffLevels (env env' : Environ) : Prop :=
  ∀ name, (∀ id ∈ registeredIds, name ≠ levelVariable id) → env name = env' name

/-- Every registered id is `NGEN` or the id of a configured key. -/
def CoversIds (mods : List (Text × Text)) : Prop :=
  ∀ id ∈ registeredIds, id = text "NGEN" ∨ ∃ kv ∈ mods, resolvesTo id kv

/-- Such environments give the same answers to every question about the policy. -/
theorem AgreeOffLevels.getenv {env env' : Environ} (h : AgreeOffLevels env env') {name : Text}
    (hname : ¬ text "_LOGLEVEL" <:+ name) : getenv env name = getenv env' name := by
  rw [Ewts.getenv, h name fun id _ => levelVariable_ne hname, ← Ewts.getenv]

/-- So they end up with the same level map. -/
theorem AgreeOffLevels.levels {env env' : Environ} (h : AgreeOffLevels env env') (os : Os)
    (order : HashOrder) : (policyOf os order .fresh env).moduleLogLevels =
      (policyOf os order .fresh env').moduleLogLevels := by
  have hdir : resultsDir env = resultsDir env' :=
    h.getenv (policyVariables_suffix _ (by simp [policyVariables]))
  have hlevel : Ewts.getenv env (text "EWTS_LOG_LEVEL") =
      Ewts.getenv env' (text "EWTS_LOG_LEVEL") :=
    h.getenv (policyVariables_suffix _ (by simp [policyVariables]))
  have hdefault : getDefaultLogLevel env = getDefaultLogLevel env' := by
    simp only [getDefaultLogLevel, hlevel]
  cases hload : configOf os (resultsDir env') with
  | some tree =>
    rw [policyOf_loaded os order env' hload, policyOf_loaded os order env (by rw [hdir, hload])]
    rfl
  | none =>
    rw [policyOf_default os order env' hload, policyOf_default os order env (by rw [hdir, hload]),
      hdefault]

/-- The ids that a loaded policy exports. -/
theorem exported_load_iff (lg : Logger) (env : Environ) (tree : ConfigTree)
    (hempty : lg.moduleLogLevels = ∅) {id : Text} :
    (∃ key level, (lg.load env tree).moduleLogLevels.lookup key = some level ∧
      envVarIdentFromModuleKey key = id) ↔
      id = text "NGEN" ∨ ∃ kv ∈ tree.modules.getD [], resolvesTo id kv := by
  have hngen : envVarIdentFromModuleKey moduleKey = text "NGEN" := (entry_key _ moduleKey_mem).2
  constructor
  · rintro ⟨key, level, hl, hkey⟩
    rw [lookup_load lg env rfl hempty] at hl
    cases hconf : configured (tree.modules.getD []) key with
    | some level' =>
      obtain ⟨kv, hkv, rfl⟩ := mem_of_configured hconf
      exact Or.inr ⟨kv, hkv, hkey⟩
    | none =>
      rw [hconf, Option.none_or] at hl
      split at hl
      · rename_i hmod
        left
        rw [← hkey, hmod, hngen]
      · cases hl
  · rintro (rfl | ⟨kv, hkv, hkey⟩)
    · refine ⟨moduleKey, (configured (tree.modules.getD []) moduleKey).getD .INFO, ?_, hngen⟩
      rw [lookup_load lg env rfl hempty, if_pos rfl]
      cases configured (tree.modules.getD []) moduleKey <;> rfl
    · obtain ⟨level, hlevel⟩ := exists_configured hkv
      exact ⟨trim kv.1, level, by rw [lookup_load lg env rfl hempty, hlevel, Option.some_or], hkey⟩

/-- The defaults export all registered ids. -/
theorem exported_useDefaults (lg : Logger) (level : LogLevel) {id : Text}
    (hid : id ∈ registeredIds) :
    ∃ key level', (lg.useDefaults level).moduleLogLevels.lookup key = some level' ∧
      envVarIdentFromModuleKey key = id := by
  obtain ⟨e, he, rfl⟩ := List.mem_map.mp hid
  exact ⟨e.key, level, lookup_useDefaults lg level e he, (entry_key e he).2⟩

/-- The level variables after initialisation do not depend on their inherited values
exactly when a loaded configuration covers all registered ids. -/
theorem inherited_levels_overwritten_iff (os : Os) (order : HashOrder) (stamp : Timestamp)
    (files : Text → Option Text) (env : Environ) :
    (∀ env₁ env₂, AgreeOffLevels env₁ env → AgreeOffLevels env₂ env →
      ∀ id ∈ registeredIds, (afterInit os order stamp env₁ files).env (levelVariable id) =
        (afterInit os order stamp env₂ files).env (levelVariable id)) ↔
      ∀ tree, configOf os (resultsDir env) = some tree → CoversIds (tree.modules.getD []) := by
  constructor
  · -- Two values of a variable that no configured key stands for stay apart.
    intro h tree hload id hid
    by_contra hcover
    have hunset : ∀ env', AgreeOffLevels env' env →
        (afterInit os order stamp env' files).env (levelVariable id) = env' (levelVariable id) := by
      intro env' henv
      have hlevels := henv.levels os order
      rw [policyOf_loaded os order env hload] at hlevels
      have hname : ∀ t ∈ [text "EWTS_USE_NGEN_BRIDGE", text "EWTS_ENABLED", text "EWTS_RANK"],
          levelVariable id ≠ t := fun t ht =>
        (levelVariable_ne (policyVariables_suffix t (List.mem_of_mem_take (i := 3) ht))).symm
      rw [afterInit_env, setEnvVars_other, envAtRead_other]
      · exact fun hmem => hname _ hmem rfl
      · exact fun hmem => hname _ (List.mem_of_mem_take (i := 2) hmem) rfl
      · intro a ha hvar
        rw [hlevels] at ha
        have hkey := (exports_id (registeredIds_ne_nil hid)).mp ⟨a, ha, hvar⟩
        exact hcover ((exported_load_iff .fresh _ tree rfl).mp hkey)
    have hagree : ∀ value, AgreeOffLevels (env.setenv (levelVariable id) value) env :=
      fun value name hname => env.setenv_other (hname id hid) value
    have heq := h _ _ (hagree (text "10")) (hagree (text "20")) id hid
    rw [hunset _ (hagree _), hunset _ (hagree _), env.setenv_same, env.setenv_same] at heq
    exact absurd (Option.some.inj heq) (by decide)
  · intro hcover env₁ env₂ h₁ h₂ id hid
    have hexported : ∃ key level,
        (policyOf os order .fresh env).moduleLogLevels.lookup key = some level ∧
          envVarIdentFromModuleKey key = id := by
      cases hload : configOf os (resultsDir env) with
      | some tree =>
        rw [policyOf_loaded os order env hload]
        exact (exported_load_iff .fresh _ tree rfl).mpr (hcover tree hload id hid)
      | none =>
        rw [policyOf_default os order env hload]
        exact exported_useDefaults .fresh _ hid
    rw [afterInit_env, afterInit_env, setEnvVars, setEnvVars, h₁.levels os order,
      h₂.levels os order]
    exact Environ.setAll_congr (Or.inr ((exports_id (registeredIds_ne_nil hid)).mpr hexported))

/-- An inherited level of a module that the configuration leaves out survives. -/
theorem inherited_level_survives :
    (afterInit (levelsOs []) insertionOrder default
      (runEnv.setenv (levelVariable (text "PET")) (text "10")) fun _ => none).env
        (levelVariable (text "PET")) = some (text "10") ∧
    (afterInit (levelsOs []) insertionOrder default
      (runEnv.setenv (levelVariable (text "PET")) (text "20")) fun _ => none).env
        (levelVariable (text "PET")) = some (text "20") := by
  have hload : ∀ value, configOf (levelsOs []) (resultsDir (runEnv.setenv
      (levelVariable (text "PET")) value)) = some ⟨none, none, none, some []⟩ :=
    fun value => configOf_levelsOs []
  rw [afterInit_env, afterInit_env, policyOf_loaded _ _ _ (hload _),
    policyOf_loaded _ _ _ (hload _)]
  decide

end Ewts.Ngen
