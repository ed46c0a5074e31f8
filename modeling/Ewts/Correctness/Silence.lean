import Ewts.Core.Runs
import Ewts.Correctness.Emission

/-!
# Disabled loggers

A disabled logger has no flag, only a threshold above all levels. A run of calls stays
silent exactly as long as every record lies below the threshold that is installed when
it is sent, and no status is logged directly.
-/

namespace Ewts.Python

variable (u : Unicode) (ancestors : List Int)

/-- A call on a logger, with the clock or the environment that it meets. -/
inductive Call where
  | log (now : Timestamp) (level : Int) (message : Text)
  | method (m : Method) (now : Timestamp) (message : Text)
  | setLevel (level : Int)
  | setLevelFromEnv (p : Process)

/-- What a call writes. -/
def Call.output (lg : EwtsLogger) : Call → List Output
  | .log now level message => lg.log u now level message
  | .method m now message => lg.call u ancestors m now message
  | .setLevel _ | .setLevelFromEnv _ => []

/-- The logger after a call. -/
def Call.next (lg : EwtsLogger) : Call → EwtsLogger
  | .log .. | .method .. => lg
  | .setLevel level => lg.setLevel level
  | .setLevelFromEnv p => lg.setLevelFromEnv u p

/-- No call of the run writes a record. -/
def Silent (lg : EwtsLogger) (calls : List Call) : Prop :=
  EachStep (Call.next u) (fun lg c => c.output u ancestors lg = []) lg calls

/-- The threshold after a call on the logger of an id. -/
def Call.threshold (ewtsId : Text) (t : Int) : Call → Int
  | .log .. | .method .. => t
  | .setLevel level => level
  | .setLevelFromEnv p => (getLevelForEwtsId u ewtsId p).1

/-- A threshold holds a call back: its level is lower, and it is no status past the
wrapped logger. -/
def Call.HeldBack (t : Int) : Call → Prop
  | .log _ level _ => level ≠ 60 ∧ level < t
  | .method m _ _ => m.level < effectiveLevel t ancestors
  | .setLevel _ | .setLevelFromEnv _ => True

/-- A record of a method reaches the sink exactly when it reaches the effective level. -/
theorem call_eq_nil_iff {lg : EwtsLogger} (h : Synced lg) (m : Method) (now : Timestamp)
    (message : Text) :
    lg.call u ancestors m now message = [] ↔ m.level < effectiveLevel lg.minLevel ancestors := by
  unfold Synced at h
  have hlevel : (0 : Int) < m.level := by cases m <;> decide
  have hne := submit_ne_nil_iff u lg ancestors now m.level message
  rw [Method.map_level, h] at hne
  rw [EwtsLogger.call, ← not_iff_not, ← ne_eq, hne]
  by_cases h0 : lg.minLevel = 0
  · rw [h0]
    omega
  · rw [effectiveLevel_of_ne_zero h0]
    omega

/-- In one state, a call is silent exactly when the threshold holds it back. -/
theorem Call.output_eq_nil_iff {lg : EwtsLogger} (h : Synced lg) (c : Call) :
    c.output u ancestors lg = [] ↔ c.HeldBack ancestors lg.minLevel := by
  cases c with
  | log now level message =>
    have hne := write_ne_nil_iff u lg now level message
    rw [Call.output, EwtsLogger.log, ← not_iff_not, ← ne_eq, hne, Call.HeldBack]
    omega
  | method m now message =>
    apply call_eq_nil_iff
    exact h
  | setLevel level => exact iff_of_true rfl trivial
  | setLevelFromEnv p => exact iff_of_true rfl trivial

/-- A call keeps the id and both thresholds equal, and installs its threshold. -/
theorem Call.next_spec {lg : EwtsLogger} (h : Synced lg) (c : Call) :
    Synced (c.next u lg) ∧ (c.next u lg).ewtsId = lg.ewtsId ∧
      (c.next u lg).minLevel = c.threshold u lg.ewtsId lg.minLevel := by
  cases c with
  | log now level message => exact ⟨h, rfl, rfl⟩
  | method m now message => exact ⟨h, rfl, rfl⟩
  | setLevel level => exact ⟨rfl, rfl, rfl⟩
  | setLevelFromEnv p => exact ⟨rfl, rfl, rfl⟩

/-- A run is silent exactly when the thresholds that its calls install hold every record
back. -/
theorem silent_iff {lg : EwtsLogger} (h : Synced lg) (calls : List Call) :
    Silent u ancestors lg calls ↔
      EachStep (Call.threshold u lg.ewtsId) (Call.HeldBack ancestors) lg.minLevel calls := by
  apply eachStep_iff_of_simulation
    (R := fun lg' t => Synced lg' ∧ lg'.ewtsId = lg.ewtsId ∧ lg'.minLevel = t)
  · rintro lg' _ c ⟨hsync, hid, rfl⟩
    constructor
    · exact Call.output_eq_nil_iff u ancestors hsync c
    · obtain ⟨hsync', hid', hmin⟩ := c.next_spec u hsync
      rw [hid] at hid' hmin
      exact ⟨hsync', hid', hmin⟩
  · exact ⟨h, rfl, rfl⟩

/-- A disabled logger has the threshold 999 and no sink but `stdout`. -/
theorem new_disabled (ewtsId : Text) {cfg : EwtsConfig} (bridgeLoads : Bool)
    (files : Text × Text) (h : cfg.enabled = false) :
    EwtsLogger.new u ewtsId cfg bridgeLoads files =
      ⟨u.upper ewtsId, false, none, none, 999, 999⟩ := by
  unfold EwtsLogger.new
  simp only [h, Bool.not_false, ite_true]

/-- A disabled logger stays silent exactly when every record lies below the threshold
installed last, at first 999, and none is a status past the wrapped logger. -/
theorem disabled_silent_iff (ewtsId : Text) {cfg : EwtsConfig} (bridgeLoads : Bool)
    (files : Text × Text) (h : cfg.enabled = false) (calls : List Call) :
    Silent u ancestors (EwtsLogger.new u ewtsId cfg bridgeLoads files) calls ↔
      EachStep (Call.threshold u (u.upper ewtsId)) (Call.HeldBack ancestors) 999 calls := by
  rw [silent_iff u ancestors (synced_new u ewtsId cfg bridgeLoads files),
    new_disabled u ewtsId bridgeLoads files h]

/-- The configuration under `EWTS_ENABLED=off`. -/
def disabledConfig : EwtsConfig := ⟨false, false, none, 20, -1, none⟩

theorem disabled_silent_methods :
    Silent .ascii [] (.new .ascii (text "TROUTE") disabledConfig false ([], []))
      [.method .status default (text "done"), .log default 50 (text "lost"),
        .method .debug default (text "x")] := by
  rw [disabled_silent_iff .ascii [] (text "TROUTE") false ([], []) rfl]
  simp only [EachStep, Call.threshold, Call.HeldBack, and_true]
  decide

/-- A status logged directly is printed, and a level set later turns the logger on. -/
theorem disabled_logger_writes :
    ¬ Silent .ascii [] (.new .ascii (text "TROUTE") disabledConfig false ([], []))
      [.log default 60 (text "done")] ∧
    ¬ Silent .ascii [] (.new .ascii (text "TROUTE") disabledConfig false ([], []))
      [.setLevel 10, .method .info default (text "x")] := by
  unfold Silent
  simp only [EachStep, and_true, not_and]
  exact ⟨by decide, fun _ => by decide⟩

end Ewts.Python
