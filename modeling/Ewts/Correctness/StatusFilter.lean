import Ewts.Correctness.Silence
import Ewts.Runtime.Cpp.Logger

/-!
# Status messages and thresholds

No runtime exempts a status from the threshold: a message at `STATUS` is passed on exactly
when the level that the environment gives is at most 60.
-/

namespace Ewts

/-- The level `STATUS`. -/
def statusLevel : Int := 60

theorem C.log_status_iff (host₀ host : C.Host) {loggers : List C.LoggerState}
    {ewtsId : Text} (hnew : ∀ st ∈ loggers, st.ewtsId ≠ C.loggerKey ewtsId) (ewtsNgen : Bool)
    (msg : Text) (hon : C.parseEnabled (getenv host₀.env (text "EWTS_ENABLED")) = true) :
    (C.ewtsLogModule host (C.ewtsInit host₀ loggers ewtsId ewtsNgen) ewtsId statusLevel
      (some msg)).1 ≠ none ↔ C.initialLevel host₀.env (C.loggerKey ewtsId) ≤ statusLevel := by
  have hst := C.getLoggerState_again host₀.env host.env hnew ewtsNgen false
  have hlevel : (C.initLoggerState host₀.env (.alloc (C.loggerKey ewtsId) ewtsNgen)).level =
      C.initialLevel host₀.env (C.loggerKey ewtsId) := by
    change C.initialLevel host₀.env ((C.loggerKey ewtsId).take 63) = _
    rw [C.take_loggerKey]
  change (C.vLogWithState host.env host.linked host.opens host.now
    (C.getLoggerState host.env (C.ewtsInit host₀ loggers ewtsId ewtsNgen) ewtsId false).1
    statusLevel msg).1 ≠ none ↔ _
  rw [C.vLogWithState_ne_none_iff, C.ewtsInit, hst]
  change C.parseEnabled _ = true ∧ (C.initLoggerState host₀.env _).level ≤ _ ↔ _
  rw [hlevel]
  exact and_iff_right hon

theorem Cpp.log_status_iff (host₀ host : Cpp.Host) (ewtsId : Text) (ewtsNgen : Bool)
    (message : Text) (hon : Cpp.parseEnabled (getenv host₀.env (text "EWTS_ENABLED")) = true) :
    (((Cpp.Logger.new ewtsId ewtsNgen).initOnce host₀.env).log host statusLevel message).1 ≠
      none ↔ Cpp.initialLevel host₀.env (Cpp.trimUpper ewtsId) ≤ statusLevel := by
  rw [Cpp.Logger.log_ne_none_iff, Cpp.Logger.initOnce_initOnce]
  exact and_iff_right hon

/-- The root logger, with its level `WARNING`, is the only ancestor with a level. -/
theorem Python.call_status_iff (u : Python.Unicode) (home : Text → Text) (p : Python.Process)
    (ewtsId : Text) {cfg : Python.EwtsConfig}
    (hcfg : ((Python.loadConfig u home (fun _ => none) ewtsId).run p).1 = some cfg)
    (hon : cfg.enabled = true) (bridgeLoads : Bool) (files : Text × Text) (now : Timestamp)
    (message : Text) :
    (Python.EwtsLogger.new u ewtsId cfg bridgeLoads files).call u [] .status now message ≠ [] ↔
      (Python.getLevelForEwtsId u (u.upper ewtsId) p).1 ≤ statusLevel := by
  have hsync := Python.synced_new u ewtsId cfg bridgeLoads files
  have hlevel : (Python.EwtsLogger.new u ewtsId cfg bridgeLoads files).minLevel =
      (Python.getLevelForEwtsId u (u.upper ewtsId) p).1 := by
    rw [(Python.new_enabled u ewtsId bridgeLoads files hon).1,
      (Python.readsView_getLevelForEwtsId u _).value]
    rw [(Python.readsView_loadConfig u home _ ewtsId).value] at hcfg
    obtain ⟨logDir, _, rfl⟩ := Option.map_eq_some_iff.mp hcfg
    rfl
  rw [ne_eq, Python.call_eq_nil_iff u [] hsync, hlevel, Int.not_lt]
  generalize (Python.getLevelForEwtsId u (u.upper ewtsId) p).1 = level
  by_cases h0 : level = 0
  · subst h0
    exact iff_of_true (by decide) (by decide)
  · rw [Python.effectiveLevel_of_ne_zero h0]
    rfl

/-- In every runtime an enabled logger passes a status on exactly when the level that it has
read from its environment is at most `STATUS`. -/
theorem status_passed_on_iff (ewtsId msg : Text)
    (hostC₀ hostC : C.Host) (loggers : List C.LoggerState)
    (hnew : ∀ st ∈ loggers, st.ewtsId ≠ C.loggerKey ewtsId) (ewtsNgen : Bool)
    (honC : C.parseEnabled (getenv hostC₀.env (text "EWTS_ENABLED")) = true)
    (hostCpp₀ hostCpp : Cpp.Host)
    (honCpp : Cpp.parseEnabled (getenv hostCpp₀.env (text "EWTS_ENABLED")) = true)
    (u : Python.Unicode) (home : Text → Text) (p : Python.Process) (cfg : Python.EwtsConfig)
    (hcfg : ((Python.loadConfig u home (fun _ => none) ewtsId).run p).1 = some cfg)
    (hon : cfg.enabled = true) (bridgeLoads : Bool) (files : Text × Text) (now : Timestamp) :
    ((C.ewtsLogModule hostC (C.ewtsInit hostC₀ loggers ewtsId ewtsNgen) ewtsId statusLevel
      (some msg)).1 ≠ none ↔ C.initialLevel hostC₀.env (C.loggerKey ewtsId) ≤ statusLevel) ∧
    ((((Cpp.Logger.new ewtsId ewtsNgen).initOnce hostCpp₀.env).log hostCpp statusLevel msg).1 ≠
      none ↔ Cpp.initialLevel hostCpp₀.env (Cpp.trimUpper ewtsId) ≤ statusLevel) ∧
    ((Python.EwtsLogger.new u ewtsId cfg bridgeLoads files).call u [] .status now msg ≠ [] ↔
      (Python.getLevelForEwtsId u (u.upper ewtsId) p).1 ≤ statusLevel) :=
  ⟨C.log_status_iff hostC₀ hostC hnew ewtsNgen msg honC,
    Cpp.log_status_iff hostCpp₀ hostCpp ewtsId ewtsNgen msg honCpp,
    Python.call_status_iff u home p ewtsId hcfg hon bridgeLoads files now msg⟩

/-- Only `EWTS_LOG_LEVEL` is set. -/
def levelEnv (level : Text) : Environ :=
  Environ.setenv (fun _ => none) (text "EWTS_LOG_LEVEL") level

/-- The configuration that Python then loads. -/
def levelConfig (level : Int) : Python.EwtsConfig := ⟨true, false, none, level, -1, none⟩

theorem status_passed_on_fatal :
    (C.ewtsLogModule ⟨levelEnv (text "FATAL"), default, false, fun _ => true⟩
      (C.ewtsInit ⟨levelEnv (text "FATAL"), default, false, fun _ => true⟩ [] (text "PET") false)
      (text "PET") statusLevel (some (text "done"))).1 ≠ none ∧
    (((Cpp.Logger.new (text "PET") false).initOnce (levelEnv (text "FATAL"))).log
      ⟨levelEnv (text "FATAL"), default, false, fun _ => true, fun _ => true⟩ statusLevel
      (text "done")).1 ≠ none ∧
    (Python.EwtsLogger.new .ascii (text "PET") (levelConfig 50) false ([], [])).call .ascii []
      .status default (text "done") ≠ [] := by
  obtain ⟨hc, hcpp, hpy⟩ := status_passed_on_iff (text "PET") (text "done")
    ⟨levelEnv (text "FATAL"), default, false, fun _ => true⟩
    ⟨levelEnv (text "FATAL"), default, false, fun _ => true⟩ [] (by simp) false (by decide)
    ⟨levelEnv (text "FATAL"), default, false, fun _ => true, fun _ => true⟩
    ⟨levelEnv (text "FATAL"), default, false, fun _ => true, fun _ => true⟩ (by decide)
    .ascii id ⟨levelEnv (text "FATAL"), levelEnv (text "FATAL")⟩ (levelConfig 50) rfl rfl false
    ([], []) default
  exact ⟨hc.mpr (by decide), hcpp.mpr (by decide), hpy.mpr (by decide)⟩

/-- At `EWTS_LOG_LEVEL=70` logging is enabled, and all runtimes drop the message. -/
theorem status_dropped_at_seventy :
    C.parseEnabled (getenv (levelEnv (text "70")) (text "EWTS_ENABLED")) = true ∧
    Cpp.parseEnabled (getenv (levelEnv (text "70")) (text "EWTS_ENABLED")) = true ∧
    (C.ewtsLogModule ⟨levelEnv (text "70"), default, false, fun _ => true⟩ [] (text "PET")
      statusLevel (some (text "done"))).1 = none ∧
    ((Cpp.Logger.new (text "PET") false).log
      ⟨levelEnv (text "70"), default, false, fun _ => true, fun _ => true⟩ statusLevel
      (text "done")).1 = none ∧
    ((Python.loadConfig .ascii id (fun _ => none) (text "PET")).run
      ⟨levelEnv (text "70"), levelEnv (text "70")⟩).1 = some (levelConfig 70) ∧
    (Python.EwtsLogger.new .ascii (text "PET") (levelConfig 70) false ([], [])).call .ascii []
      .status default (text "done") = [] := by
  exact ⟨rfl, rfl, rfl, rfl, rfl, rfl⟩

end Ewts
