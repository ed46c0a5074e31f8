import Ewts.Correctness.TwoStage
import Ewts.Runtime.Python.Start

/-!
# The route of a record under ngen

A module of the C runtime looks for a results directory at every record; a Python logger
looks at its construction for the switch that ngen exports. ngen exports the switch with and
without a results directory.
-/

namespace Ewts

/-- A record of the C runtime that went to ngen. -/
def C.Output.IsBridge : C.Output → Prop
  | .bridge .. => True
  | .standalone .. => False

/-- A record of the Python runtime that went to ngen. -/
def Python.Output.IsBridge : Python.Output → Prop
  | .bridge .. => True
  | .print _ | .append .. => False

namespace Ngen

/-- What ngen exports under the name of the switch, whatever it has found. -/
theorem afterInit_switch (os : Os) (order : HashOrder) (stamp : Timestamp) (env : Environ)
    (files : Text → Option Text) :
    (afterInit os order stamp env files).env (text "EWTS_USE_NGEN_BRIDGE") = some (text "1") := by
  have hlevel : ∀ a ∈ exports order (policyOf os order .fresh env).moduleLogLevels,
      a.1 ≠ text "EWTS_USE_NGEN_BRIDGE" := exports_ne (by decide)
  rw [afterInit_env, setEnvVars, Environ.setAll_other hlevel, Environ.setenv_other _ (by decide),
    Environ.setenv_same]

end Ngen

/-- `EwtsInit(.., true)` leaves a state that asks for ngen. -/
theorem C.useNgen_getLoggerState (env : Environ) (loggers : List C.LoggerState) (ewtsId : Text) :
    (C.getLoggerState env loggers ewtsId true).1.useNgen = true := by
  have hinit : ∀ st : C.LoggerState, (C.initLoggerState env st).useNgen = st.useNgen := by
    intro st
    unfold C.initLoggerState
    split <;> rfl
  unfold C.getLoggerState
  split
  · simp only [hinit, Bool.or_true]
  · rw [hinit]
    rfl

/-- A record that a linked module passes on goes to ngen exactly when it asks for ngen and
there is a results directory. -/
theorem C.isBridge_iff {env : Environ} {st : C.LoggerState} (huse : st.useNgen = true)
    {opens : Text → Bool} {now : Timestamp} {level : Int} {msg : Text} {output : C.Output}
    (h : (C.vLogWithState env true opens now st level msg).1 = some output) :
    output.IsBridge ↔ C.isNgenActive env = true := by
  unfold C.vLogWithState at h
  split at h
  · cases h
  · split at h
    · rename_i hroute
      cases h
      exact iff_of_true trivial (by simpa [huse] using hroute)
    · rename_i hroute
      cases h
      exact iff_of_false id (by simpa [huse] using hroute)

/-- All a Python logger writes for a record goes the same way. -/
theorem Python.isBridge_iff {u : Python.Unicode} {lg : Python.EwtsLogger} {now : Timestamp}
    {level : Int} {message : Text} {output : Python.Output}
    (h : output ∈ lg.log u now level message) : output.IsBridge ↔ lg.bridge = true := by
  unfold Python.EwtsLogger.log Python.write at h
  simp only at h
  split at h
  · cases h
  · split at h
    · rename_i hroute
      rw [List.mem_singleton.mp h]
      exact iff_of_true trivial hroute
    · rename_i hroute
      split at h
      all_goals
        obtain ⟨line, _, rfl⟩ := List.mem_map.mp h
        exact iff_of_false id hroute

namespace Python

/-- Whether an id is enabled: its override decides before the environment. -/
def enabledFor (u : Unicode) (overrides : Overrides) (ewtsId : Text) (env : Environ) : Bool :=
  ((overrides (u.upper ewtsId)).bind EwtsRuntimeOverride.enabled).getD (enabledIn u env)

/-- An object bridges exactly when its id is enabled, once the library loads and the switch
is set. -/
theorem init_bridge (u : Unicode) {host : Host}
    (hloads : host.loads (text "libewts_ngen_bridge.so") = true) {overrides : Overrides}
    {ewtsId : Text} (hov : ∀ ov ∈ overrides (u.upper ewtsId), ov.runningInNgen = none)
    (due : Bool) {p : Process}
    (hswitch : stripped p.view (text "EWTS_USE_NGEN_BRIDGE") ≠ []) {o : EwtsObject}
    (ho : o ∈ ((EwtsObject.init u host overrides due (u.upper ewtsId)).run p).1) :
    o.bridge = enabledFor u overrides ewtsId p.view := by
  have hcfg := (readsView_loadConfig u host.home overrides (u.upper ewtsId)).value p
  rw [EwtsObject.init, Py.run_bind] at ho
  cases hload : (loadConfig u host.home overrides (u.upper ewtsId)).run p with
  | mk r q =>
    rw [hload] at ho hcfg
    cases r with
    | none => cases ho
    | some cfg =>
      have hstarted := (EwtsObject.start_started u host due _ cfg).value q o ho
      have hbridge := hstarted.bridge hloads
      obtain ⟨logDir, _, rfl⟩ := Option.map_eq_some_iff.mp hcfg.symm
      rw [hbridge]
      simp only [Unicode.upper_upper_text, enabledFor]
      cases hfound : overrides (u.upper ewtsId) with
      | none =>
        simp only [Option.map_none, Option.getD_none, Option.bind_none, decide_eq_true hswitch,
          Bool.and_true]
      | some ov =>
        simp only [Option.map_some, Option.getD_some, Option.bind_some, EwtsConfig.replace,
          hov ov hfound, Option.getD_none, decide_eq_true hswitch, Bool.and_true]

/-- The switch of the process environment counts while `os.environ` has no value of its own. -/
theorem switch_of_libc {p : Process} (hos : p.osEnviron (text "EWTS_USE_NGEN_BRIDGE") = none)
    (hlibc : p.libc (text "EWTS_USE_NGEN_BRIDGE") = some (text "1")) :
    stripped p.view (text "EWTS_USE_NGEN_BRIDGE") ≠ [] := by
  have hview : p.view (text "EWTS_USE_NGEN_BRIDGE") = some (text "1") := by
    rw [Process.view_apply, hos, hlibc]
    simp only [Option.filter_some, decide_eq_true_eq]
    exact if_pos (by decide)
  rw [stripped, hview]
  decide

end Python

/-- Every record that both a C module and a Python logger pass on goes the same way in both. -/
structure SameRoute (env : Environ) (st : C.LoggerState) (u : Python.Unicode)
    (lg : Python.EwtsLogger) : Prop where
  route : ∀ opens nowC nowPy level msg,
    ∀ output ∈ (C.vLogWithState env true opens nowC st level msg).1,
      ∀ output' ∈ lg.log u nowPy level msg, output.IsBridge ↔ output'.IsBridge

/-- After the initialisation of ngen a C module and a Python logger take the same route
exactly when the module is disabled, or there is a results directory precisely if the
logger is enabled. -/
theorem same_route_iff (os : Ngen.Os) (order : Ngen.HashOrder) (stamp : Timestamp)
    (env : Environ) (files : Text → Option Text) (loggers : List C.LoggerState) (idC : Text)
    (u : Python.Unicode) (host : Python.Host)
    (hloads : host.loads (text "libewts_ngen_bridge.so") = true) (overrides : Python.Overrides)
    (idPy : Text) (hov : ∀ ov ∈ overrides (u.upper idPy), ov.runningInNgen = none) (due : Bool)
    (osEnviron : Environ) (hos : osEnviron (text "EWTS_USE_NGEN_BRIDGE") = none)
    (o : Python.EwtsObject) (pyLevel : Int) :
    let p := Ngen.afterInit os order stamp env files
    let st := (C.getLoggerState p.env loggers idC true).1
    o ∈ ((Python.EwtsObject.init u host overrides due (u.upper idPy)).run ⟨osEnviron, p.env⟩).1 →
      (SameRoute p.env st u (o.logger pyLevel) ↔ st.enabled = false ∨
        (Ngen.resultsDir env ≠ [] ↔
          Python.enabledFor u overrides idPy (Python.Process.view ⟨osEnviron, p.env⟩) = true)) := by
  intro p st ho
  have huse : st.useNgen = true := C.useNgen_getLoggerState p.env loggers idC
  have hactive : C.isNgenActive p.env = true ↔ Ngen.resultsDir env ≠ [] :=
    Ngen.isNgenActive_afterInit
  have hbridge := Python.init_bridge u hloads hov due
    (Python.switch_of_libc hos (Ngen.afterInit_switch os order stamp env files)) ho
  rw [← hbridge, ← hactive]
  cases hon : st.enabled with
  | false =>
    refine iff_of_true ⟨?_⟩ (Or.inl rfl)
    intro opens nowC nowPy level msg output houtput
    rw [C.vLogWithState, if_pos (Or.inl hon)] at houtput
    cases houtput
  | true =>
    simp only [Bool.true_eq_false, false_or]
    constructor
    · intro hsame
      -- Both pass a record whose level is high enough.
      let level := max st.level o.minLevel
      have hC : (C.vLogWithState p.env true (fun _ => true) default st level []).1 ≠ none :=
        C.vLogWithState_ne_none_iff.mpr ⟨hon, Int.le_max_left ..⟩
      have hPy : (o.logger pyLevel).log u default level [] ≠ [] :=
        (Python.write_ne_nil_iff u _ default level []).mpr (Or.inr (Int.le_max_right ..))
      obtain ⟨output, houtput⟩ := Option.ne_none_iff_exists'.mp hC
      obtain ⟨output', houtput'⟩ := List.exists_mem_of_ne_nil _ hPy
      have h := hsame.route _ _ _ _ _ output houtput output' houtput'
      rwa [C.isBridge_iff huse houtput, Python.isBridge_iff houtput'] at h
    · intro h
      constructor
      intro opens nowC nowPy level msg output houtput output' houtput'
      rw [C.isBridge_iff huse houtput, Python.isBridge_iff houtput']
      exact h

/-- A Python process in which the bridge library loads. -/
def bridgeHost : Python.Host where
  process := ⟨fun _ => none, fun _ => none⟩
  now := default
  home := id
  loads _ := true
  loadError _ := []
  encodes _ := true

theorem same_route_pet :
    let p := Ngen.afterInit (Ngen.levelsOs []) Ngen.insertionOrder default Ngen.runEnv fun _ => none
    SameRoute p.env (C.getLoggerState p.env [] (text "PET") true).1 .ascii
      (.mk (text "PET") true none none 20 20) := by
  have henv : (Ngen.afterInit (Ngen.levelsOs []) Ngen.insertionOrder default Ngen.runEnv
      fun _ => none).env = Ngen.setEnvVars Ngen.insertionOrder (Ngen.Logger.fresh.load
        (Ngen.envAtRead (Ngen.levelsOs []) Ngen.insertionOrder .fresh Ngen.runEnv)
          ⟨none, none, none, some []⟩)
        (Ngen.envAtRead (Ngen.levelsOs []) Ngen.insertionOrder .fresh Ngen.runEnv) := by
    rw [Ngen.afterInit_env, Ngen.policyOf_loaded _ _ _ (Ngen.configOf_levelsOs [])]
  refine (same_route_iff (Ngen.levelsOs []) Ngen.insertionOrder default Ngen.runEnv (fun _ => none)
    [] (text "PET") .ascii bridgeHost rfl (fun _ => none) (text "PET") (by simp) true
    (fun _ => none) rfl ⟨text "PET", true, none, none, 20⟩ 20 ?_).mpr (Or.inr ?_)
  · rw [henv]
    rfl
  · rw [henv]
    decide

/-- Without a results directory the C module writes on its own, the Python logger goes to
ngen. -/
theorem routes_differ_without_directory :
    let p := Ngen.afterInit (Ngen.levelsOs []) Ngen.insertionOrder default (fun _ => none)
      fun _ => none
    let st := (C.getLoggerState p.env [] (text "PET") true).1
    (∃ lines, (C.vLogWithState p.env true (fun _ => true) default st 20 (text "dry")).1 =
      some (.standalone (some .stdout) lines)) ∧
    ∃ o, ((Python.EwtsObject.init .ascii bridgeHost (fun _ => none) true (text "PET")).run
        ⟨fun _ => none, p.env⟩).1 = some o ∧
      (o.logger 20).log .ascii default 20 (text "dry") =
        [.bridge (text "PET") 20 (text "dry")] := by
  exact ⟨⟨_, rfl⟩, _, rfl, rfl⟩

end Ewts
