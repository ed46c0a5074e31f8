import Ewts.Core.Environ
import Ewts.Runtime.Python.Formatter
import Ewts.Runtime.Python.Path

/-!
# Environment-driven configuration

`getenv_any` and the functions of `config.py` that derive a level threshold from the
environment. The interpreter keeps its own copy of the environment, so lookups run
in a state of two environments.
-/

namespace Ewts.Python

/-- The environments of an embedded interpreter. -/
structure Process where
  /-- `os.environ`, copied at interpreter start. -/
  osEnviron : Environ
  /-- What libc `getenv` returns. -/
  libc : Environ

/-- `getenv_any(key, None)`: `os.environ` first, then a nonempty libc value, which is
written back to both environments. Bytes that are no UTF-8 stand as lone surrogates, and
neither they nor such a key get past the conversions. -/
def getenvAnyOrNone (key : Text) : StateM Process (Option Text) := fun p =>
  match p.osEnviron key with
  | some v => (some v, p)
  | none =>
    match p.libc key with
    | none => (none, p)
    | some v =>
      if v = [] ∨ ¬ key.Scalar ∨ ¬ v.Scalar then (none, p)
      else (some v, ⟨p.osEnviron.setenv key v, p.libc.setenv key v⟩)

/-- `getenv_any(key, default)`. -/
def getenvAny (key default : Text) : StateM Process Text := do
  return (← getenvAnyOrNone key).getD default

/-- `_parse_level_value(v)`. -/
def parseLevelValue (u : Unicode) (v : Text) : Option Int :=
  let s := strip v
  if s = [] then none
  else if u.isDigits s then (u.toInt s).map Int.ofNat
  else levels.lookup (u.upper s)

/-- `LEVELS.get("INFO", 20)`. -/
def infoLevel : Int := (levels.lookup (text "INFO")).getD 20

/-- `get_default_level()`. -/
def getDefaultLevel (u : Unicode) : StateM Process Int := do
  let v ← getenvAny (text "EWTS_LOG_LEVEL") []
  return (parseLevelValue u (strip v)).getD infoLevel

/-- `get_level_for_ewts_id(ewts_id)`. -/
def getLevelForEwtsId (u : Unicode) (ewtsId : Text) : StateM Process Int := do
  let v ← getenvAny (u.upper ewtsId ++ text "_LOGLEVEL") []
  match parseLevelValue u (strip v) with
  | some l => return l
  | none => getDefaultLevel u

/-- `_env_bool(name, default)`. -/
def envBool (u : Unicode) (name : Text) (default : Bool) : StateM Process Bool := do
  match ← getenvAnyOrNone name with
  | none => return default
  | some v => return !([text "0", text "false", text "off", text "no"].contains (u.lower (strip v)))

/-- `is_ngen_active()`. -/
def isNgenActive : StateM Process Bool := do
  return strip (← getenvAny (text "EWTS_USE_NGEN_BRIDGE") []) ≠ []

/-- A function that may raise, over the environments of the process. -/
abbrev Py := OptionT (StateM Process)

/-- The result of a call that can raise and leaves the environments alone. -/
def Py.of {α : Type} (r : Option α) : Py α := OptionT.mk (pure r)

/-- `get_log_dir()`, where `home` is `os.path.expanduser`; a user without a home raises. -/
def getLogDir (home : Text → Text) : Py (Option Text) := do
  let v := strip (← getenvAny (text "EWTS_LOG_DIR") [])
  if v = [] then return none
  else
    let dir ← Py.of ((Path.parse v).expanduser home)
    return some dir.str

/-- `get_mpi_rank()`. -/
def getMpiRank (u : Unicode) : StateM Process Int := do
  return (u.int (strip (← getenvAny (text "EWTS_RANK") []))).getD (-1)

/-- `EwtsConfig`, as `load_config` returns it. -/
structure EwtsConfig where
  enabled : Bool
  runningInNgen : Bool
  logDir : Option Text
  defaultLevel : Int
  mpiRank : Int
  logFileName : Option Text

/-- `EwtsRuntimeOverride`. -/
structure EwtsRuntimeOverride where
  enabled : Option Bool
  defaultLevel : Option Int
  logDir : Option Text
  logFileName : Option Text
  runningInNgen : Option Bool

/-- `_RUNTIME_OVERRIDES`. -/
abbrev Overrides := Text → Option EwtsRuntimeOverride

/-- `set_runtime_override(ewts_id, ..)`. -/
def setRuntimeOverride (u : Unicode) (home : Text → Text) (overrides : Overrides) (ewtsId : Text)
    (ov : EwtsRuntimeOverride) : Option Overrides :=
  match ov.logDir with
  | none => some (Function.update overrides (u.upper ewtsId) (some ov))
  | some dir => ((Path.parse dir).expanduser home).map fun dir =>
      Function.update overrides (u.upper ewtsId) (some { ov with logDir := some dir.str })

/-- `clear_runtime_override(ewts_id)`. -/
def clearRuntimeOverride (u : Unicode) (overrides : Overrides) (ewtsId : Text) : Overrides :=
  Function.update overrides (u.upper ewtsId) none

/-- `replace(cfg, **updates)` with the fields of an override that are given. -/
def EwtsConfig.replace (cfg : EwtsConfig) (ov : EwtsRuntimeOverride) : EwtsConfig where
  enabled := ov.enabled.getD cfg.enabled
  runningInNgen := ov.runningInNgen.getD cfg.runningInNgen
  logDir := ov.logDir <|> cfg.logDir
  defaultLevel := ov.defaultLevel.getD cfg.defaultLevel
  mpiRank := cfg.mpiRank
  logFileName := ov.logFileName <|> cfg.logFileName

/-- `load_config(ewts_id)`. -/
def loadConfig (u : Unicode) (home : Text → Text) (overrides : Overrides) (ewtsId : Text) :
    Py EwtsConfig := do
  let runningInNgen ← isNgenActive
  let enabled ← envBool u (text "EWTS_ENABLED") true
  let logDir ← getLogDir home
  let defaultLevel ← getLevelForEwtsId u (u.upper ewtsId)
  let mpiRank ← getMpiRank u
  let cfg : EwtsConfig := ⟨enabled, runningInNgen, logDir, defaultLevel, mpiRank, none⟩
  match overrides (u.upper (u.upper ewtsId)) with
  | none => return cfg
  | some ov => return cfg.replace ov

/-! ## Reading the environment -/

/-- An exception ends a computation. -/
theorem Py.run_bind {α β : Type} (call : Py α) (rest : α → Py β) (p : Process) :
    (call >>= rest).run p = match call.run p with
      | (none, q) => (none, q)
      | (some a, q) => (rest a).run q := by
  change (call >>= rest) p = match call p with
      | (none, q) => (none, q)
      | (some a, q) => rest a q
  simp only [bind, OptionT.bind, OptionT.mk, StateT.bind]
  cases call p with
  | mk r q => cases r <;> rfl

/-- What `getenv_any` finds under each name. -/
def Process.view (p : Process) : Environ := fun key => (getenvAnyOrNone key p).1

/-- A computation whose value depends on what `getenv_any` finds, and that does not change it. -/
structure ReadsView {α : Type} (call : StateM Process α) (f : Environ → α) : Prop where
  value : ∀ p, (call p).1 = f p.view
  view : ∀ p, (call p).2.view = p.view

/-- A value reads nothing. -/
theorem readsView_pure {α : Type} (a : α) : ReadsView (pure a) fun _ => a :=
  ⟨fun _ => rfl, fun _ => rfl⟩

/-- Two readings compose. -/
theorem ReadsView.bind {α β : Type} {call : StateM Process α} {rest : α → StateM Process β}
    {f : Environ → α} {g : α → Environ → β} (h : ReadsView call f)
    (hrest : ∀ a, ReadsView (rest a) (g a)) :
    ReadsView (call >>= rest) fun env => g (f env) env := by
  constructor
  · intro p
    change (rest (call p).1 (call p).2).1 = _
    rw [(hrest _).value, h.view, h.value]
  · intro p
    change (rest (call p).1 (call p).2).2.view = _
    rw [(hrest _).view, h.view]

/-- So do they when the second may raise. -/
theorem ReadsView.bindLift {α β : Type} {call : StateM Process α} {rest : α → Py β}
    {f : Environ → α} {g : α → Environ → Option β} (h : ReadsView call f)
    (hrest : ∀ a, ReadsView (rest a).run (g a)) :
    ReadsView ((liftM call : Py α) >>= rest).run fun env => g (f env) env :=
  h.bind hrest

/-- So do they when both may. -/
theorem ReadsView.bindPy {α β : Type} {call : Py α} {rest : α → Py β}
    {f : Environ → Option α} {g : α → Environ → Option β} (h : ReadsView call.run f)
    (hrest : ∀ a, ReadsView (rest a).run (g a)) :
    ReadsView (call >>= rest).run fun env => (f env).bind fun a => g a env := by
  constructor
  · intro p
    rw [Py.run_bind]
    have hv := h.value p
    have hs := h.view p
    cases hc : call.run p with
    | mk r q =>
      rw [hc] at hv hs
      cases r with
      | none => rw [← hv]; rfl
      | some a =>
        rw [← hv, ← hs]
        exact (hrest a).value q
  · intro p
    rw [Py.run_bind]
    have hs := h.view p
    cases hc : call.run p with
    | mk r q =>
      rw [hc] at hs
      cases r with
      | none => exact hs
      | some a => exact ((hrest a).view q).trans hs

/-- `os.environ` decides; a libc value counts when it is not empty and can be decoded. -/
theorem Process.view_apply (p : Process) (key : Text) : p.view key =
    match p.osEnviron key with
    | some v => some v
    | none => (p.libc key).filter fun v => v ≠ [] ∧ key.Scalar ∧ v.Scalar := by
  unfold Process.view getenvAnyOrNone
  cases p.osEnviron key with
  | some v => rfl
  | none =>
    cases p.libc key with
    | none => rfl
    | some v =>
      have hhidden : (v = [] ∨ ¬ key.Scalar ∨ ¬ v.Scalar) ↔
          ¬ (v ≠ [] ∧ key.Scalar ∧ v.Scalar) := by
        simp only [not_and_or, ne_eq, not_not]
      simp only [Option.filter_some, decide_eq_true_eq, hhidden, ite_not]
      split
      · rfl
      · rfl

/-- A read leaves the environments alone, or copies what it finds. -/
theorem getenvAnyOrNone_state (key : Text) (p : Process) :
    (getenvAnyOrNone key p).2 = p ∨ ∃ v, p.view key = some v ∧
      (getenvAnyOrNone key p).2 = ⟨p.osEnviron.setenv key v, p.libc.setenv key v⟩ := by
  unfold Process.view getenvAnyOrNone
  cases p.osEnviron key with
  | some v => exact Or.inl rfl
  | none =>
    cases p.libc key with
    | none => exact Or.inl rfl
    | some v =>
      simp only
      split
      · exact Or.inl rfl
      · exact Or.inr ⟨v, rfl, rfl⟩

/-- The first read of a variable copies it; later ones find the copy. -/
theorem readsView_getenvAnyOrNone (key : Text) :
    ReadsView (getenvAnyOrNone key) fun env => env key := by
  constructor
  · exact fun _ => rfl
  · intro p
    rcases getenvAnyOrNone_state key p with hsame | ⟨v, hv, hset⟩
    · rw [hsame]
    · rw [hset]
      funext other
      by_cases heq : other = key
      · subst heq
        rw [hv, Process.view_apply]
        simp only [Environ.setenv_same]
      · simp only [Process.view_apply, Environ.setenv_other _ heq]

/-- A variable is read from the view. -/
theorem readsView_getenvAny (key default : Text) :
    ReadsView (getenvAny key default) fun env => (env key).getD default := by
  apply ReadsView.bind (g := fun v _ => v.getD default) (readsView_getenvAnyOrNone key)
  exact fun _ => readsView_pure _

/-- A variable as its readers strip it; an unset one is empty. -/
def stripped (env : Environ) (key : Text) : Text := strip ((env key).getD [])

/-- The level that an environment gives to an id. -/
def levelIn (u : Unicode) (ewtsId : Text) (env : Environ) : Int :=
  ((parseLevelValue u (stripped env (u.upper ewtsId ++ text "_LOGLEVEL"))).or
    (parseLevelValue u (stripped env (text "EWTS_LOG_LEVEL")))).getD infoLevel

/-- Whether an environment enables logging. -/
def enabledIn (u : Unicode) (env : Environ) : Bool :=
  ((env (text "EWTS_ENABLED")).map fun v =>
    !([text "0", text "false", text "off", text "no"].contains (u.lower (strip v)))).getD true

/-- The log directory of an environment, `none` when its user has no home. -/
def logDirIn (home : Text → Text) (env : Environ) : Option (Option Text) :=
  if stripped env (text "EWTS_LOG_DIR") = [] then some none
  else ((Path.parse (stripped env (text "EWTS_LOG_DIR"))).expanduser home).map fun dir =>
    some dir.str

/-- So is the level of an id. -/
theorem readsView_getLevelForEwtsId (u : Unicode) (ewtsId : Text) :
    ReadsView (getLevelForEwtsId u ewtsId) (levelIn u ewtsId) := by
  apply ReadsView.bind (g := fun v env => ((parseLevelValue u (strip v)).or
    (parseLevelValue u (stripped env (text "EWTS_LOG_LEVEL")))).getD infoLevel)
    (readsView_getenvAny _ [])
  intro v
  cases parseLevelValue u (strip v) with
  | some l => exact readsView_pure l
  | none =>
    apply ReadsView.bind (g := fun v _ => (parseLevelValue u (strip v)).getD infoLevel)
      (readsView_getenvAny _ [])
    exact fun _ => readsView_pure _

/-- The switch is read from it. -/
theorem readsView_envBool (u : Unicode) :
    ReadsView (envBool u (text "EWTS_ENABLED") true) (enabledIn u) := by
  apply ReadsView.bind (g := fun v _ => (v.map fun v =>
    !([text "0", text "false", text "off", text "no"].contains (u.lower (strip v)))).getD true)
    (readsView_getenvAnyOrNone _)
  intro v
  cases v <;> exact readsView_pure _

/-- What `load_config` returns in an environment, `none` when it raises. -/
def configIn (u : Unicode) (home : Text → Text) (overrides : Overrides) (ewtsId : Text)
    (env : Environ) : Option EwtsConfig :=
  (logDirIn home env).map fun logDir =>
    let cfg : EwtsConfig :=
      { enabled := enabledIn u env
        runningInNgen := stripped env (text "EWTS_USE_NGEN_BRIDGE") ≠ []
        logDir := logDir
        defaultLevel := levelIn u (u.upper ewtsId) env
        mpiRank := (u.int (stripped env (text "EWTS_RANK"))).getD (-1)
        logFileName := none }
    ((overrides (u.upper (u.upper ewtsId))).map cfg.replace).getD cfg

/-- So is the directory. -/
theorem readsView_getLogDir (home : Text → Text) :
    ReadsView (getLogDir home).run (logDirIn home) := by
  apply ReadsView.bindLift (readsView_getenvAny _ _)
    (g := fun v _ => if strip v = [] then some none
      else ((Path.parse (strip v)).expanduser home).map fun dir => some dir.str)
  intro v
  simp only
  split
  · exact readsView_pure _
  · cases (Path.parse (strip v)).expanduser home <;> exact readsView_pure _

/-- `load_config` depends on the environment only through what `getenv_any` finds. -/
theorem readsView_loadConfig (u : Unicode) (home : Text → Text) (overrides : Overrides)
    (ewtsId : Text) : ReadsView (loadConfig u home overrides ewtsId).run
      (configIn u home overrides ewtsId) := by
  have hngen : ReadsView isNgenActive fun env =>
      decide (stripped env (text "EWTS_USE_NGEN_BRIDGE") ≠ []) :=
    ReadsView.bind (g := fun v _ => decide (strip v ≠ [])) (readsView_getenvAny _ _)
      fun _ => readsView_pure _
  have hrank : ReadsView (getMpiRank u) fun env =>
      (u.int (stripped env (text "EWTS_RANK"))).getD (-1) :=
    ReadsView.bind (g := fun v _ => (u.int (strip v)).getD (-1)) (readsView_getenvAny _ _)
      fun _ => readsView_pure _
  have hlast (cfg : EwtsConfig) : ReadsView (OptionT.run (m := StateM Process)
      (match overrides (u.upper (u.upper ewtsId)) with
        | none => return cfg
        | some ov => return cfg.replace ov)) fun _ =>
      some (((overrides (u.upper (u.upper ewtsId))).map cfg.replace).getD cfg) := by
    cases overrides (u.upper (u.upper ewtsId)) <;> exact readsView_pure _
  have h : ReadsView (loadConfig u home overrides ewtsId).run _ :=
    ReadsView.bindLift hngen fun _ => ReadsView.bindLift (readsView_envBool u) fun _ =>
      ReadsView.bindPy (readsView_getLogDir home) fun _ =>
        ReadsView.bindLift (readsView_getLevelForEwtsId u _) fun _ =>
          ReadsView.bindLift hrank fun _ => hlast _
  constructor
  · intro p
    rw [h.value, configIn, Option.map_eq_bind]
    rfl
  · exact h.view

/-- A level text gives a number of digits, or the number of a name. -/
theorem parseLevelValue_cases {u : Unicode} {v : Text} {l : Int}
    (h : parseLevelValue u v = some l) :
    (∃ n : Nat, u.toInt (strip v) = some n ∧ l = n) ∨ ∃ p ∈ levels, l = p.2 := by
  simp only [parseLevelValue] at h
  split at h
  · cases h
  · split at h
    · obtain ⟨n, hn, rfl⟩ := Option.map_eq_some_iff.mp h
      exact Or.inl ⟨n, hn, rfl⟩
    · obtain ⟨l₁, l₂, hl, _⟩ := List.lookup_eq_some_iff.mp h
      refine Or.inr ⟨(u.upper (strip v), l), ?_, rfl⟩
      rw [hl]
      simp

/-- The level of an environment is one that it names, or the default. -/
theorem levelIn_cases (u : Unicode) (ewtsId : Text) (env : Environ) :
    (∃ v, parseLevelValue u v = some (levelIn u ewtsId env)) ∨
      levelIn u ewtsId env = infoLevel := by
  unfold levelIn
  cases hown : parseLevelValue u (stripped env (u.upper ewtsId ++ text "_LOGLEVEL")) with
  | some l => exact Or.inl ⟨_, hown⟩
  | none =>
    rw [Option.none_or]
    cases hfallback : parseLevelValue u (stripped env (text "EWTS_LOG_LEVEL")) with
    | some l => exact Or.inl ⟨_, hfallback⟩
    | none => exact Or.inr rfl

end Ewts.Python
