import Ewts.Core.Runs
import Ewts.Runtime.Python.Logger

/-!
# What `isEnabledFor` promises

A threshold is aligned when rounding a level down to an EWTS level never crosses it,
and when a threshold of zero does not fall back to an inherited level. Exactly under
aligned thresholds `isEnabledFor` predicts whether a record reaches the sink.
-/

namespace Ewts.Python

/-- Rounding down crosses no aligned threshold, and zero inherits no filter. -/
def Aligned (ancestors : List Int) (level : Int) : Prop :=
  (level = 0 → inheritedLevel ancestors ≤ 1) ∧
    (level ≤ 10 ∨ level = 15 ∨ level = 20 ∨ level = 30 ∨ level = 40 ∨ level = 50 ∨ 60 ≤ level)

instance (ancestors : List Int) (level : Int) : Decidable (Aligned ancestors level) :=
  inferInstanceAs (Decidable ((_ → _) ∧ _))

/-- `isEnabledFor` agrees with emission at every level below `STATUS`. -/
def Predicts (u : Unicode) (ancestors : List Int) (lg : EwtsLogger) : Prop :=
  ∀ (now : Timestamp) (message : Text) (level : Int), 1 ≤ level → level < 60 →
    (submit u lg ancestors now level message ≠ [] ↔ lg.isEnabledFor level = true)

/-- The operations that install a threshold. -/
inductive LevelOp where
  | setLevel (level : Nat)
  | setLevelFromEnv (p : Process)

/-- The level that an operation installs in a logger of the given id. -/
def LevelOp.installs (u : Unicode) (ewtsId : Text) : LevelOp → Int
  | .setLevel level => level
  | .setLevelFromEnv p => (getLevelForEwtsId u ewtsId p).1

/-- One operation. -/
def LevelOp.run (u : Unicode) (lg : EwtsLogger) : LevelOp → EwtsLogger
  | .setLevel level => lg.setLevel level
  | .setLevelFromEnv p => lg.setLevelFromEnv u p

/-- A sequence of operations. -/
def runLevelOps (u : Unicode) (lg : EwtsLogger) (ops : List LevelOp) : EwtsLogger :=
  ops.foldl (LevelOp.run u) lg

/-- An operation installs its level at the logger and at the wrapped logger. -/
theorem LevelOp.run_eq (u : Unicode) (lg : EwtsLogger) (op : LevelOp) :
    op.run u lg = lg.setLevel (op.installs u lg.ewtsId) := by
  cases op <;> rfl

/-- The threshold and the level of the wrapped logger are the same. -/
def Synced (lg : EwtsLogger) : Prop := lg.pyLevel = lg.minLevel

theorem synced_new (u : Unicode) (ewtsId : Text) (cfg : EwtsConfig) (bridgeLoads : Bool)
    (files : Text × Text) : Synced (EwtsLogger.new u ewtsId cfg bridgeLoads files) := by
  unfold EwtsLogger.new Synced
  simp only
  split
  · rfl
  · split
    · rfl
    · split <;> rfl

/-- An enabled logger starts with the configured threshold under its upper-cased id. -/
theorem new_enabled (u : Unicode) (ewtsId : Text) {cfg : EwtsConfig} (bridgeLoads : Bool)
    (files : Text × Text) (h : cfg.enabled = true) :
    (EwtsLogger.new u ewtsId cfg bridgeLoads files).minLevel = cfg.defaultLevel ∧
      (EwtsLogger.new u ewtsId cfg bridgeLoads files).ewtsId = u.upper ewtsId := by
  unfold EwtsLogger.new
  simp only [h, Bool.not_true, Bool.false_eq_true, ite_false]
  split
  · exact ⟨rfl, rfl⟩
  · split <;> exact ⟨rfl, rfl⟩

/-- The mapping rounds down to the nearest EWTS level, except below `DEBUG`. -/
theorem mapPythonLevelToEwts_cases (level : Int) :
    let m := mapPythonLevelToEwts level
    level < 15 ∧ m = 10 ∨ 15 ≤ level ∧ level < 20 ∧ m = 15 ∨ 20 ≤ level ∧ level < 30 ∧ m = 20 ∨
      30 ≤ level ∧ level < 40 ∧ m = 30 ∨ 40 ≤ level ∧ level < 50 ∧ m = 40 ∨
      50 ≤ level ∧ level < 60 ∧ m = 50 ∨ 60 ≤ level ∧ m = 60 := by
  unfold mapPythonLevelToEwts
  simp only
  split_ifs <;> omega

private theorem effectiveLevel_cases (own : Int) (ancestors : List Int) :
    own = 0 ∧ effectiveLevel own ancestors = inheritedLevel ancestors ∨
      own ≠ 0 ∧ effectiveLevel own ancestors = own := by
  by_cases h : own = 0
  · exact Or.inl ⟨h, by rw [h, inheritedLevel]⟩
  · exact Or.inr ⟨h, effectiveLevel_of_ne_zero h ancestors⟩

/-- In one state, the prediction holds exactly when the threshold is aligned. -/
theorem predicts_iff (u : Unicode) (ancestors : List Int) {lg : EwtsLogger} (h : Synced lg) :
    Predicts u ancestors lg ↔ Aligned ancestors lg.minLevel := by
  unfold Synced at h
  have heff := effectiveLevel_cases lg.minLevel ancestors
  unfold Predicts Aligned EwtsLogger.isEnabledFor
  simp only [submit_ne_nil_iff, decide_eq_true_eq, h]
  constructor
  · intro hp
    constructor
    · intro h0
      have h1 := hp default [] 1 (by omega) (by omega)
      omega
    · -- An unaligned threshold refuses its own level, which is rounded below it.
      have hm := mapPythonLevelToEwts_cases lg.minLevel
      simp only at hm
      by_contra hn
      have hself := hp default [] lg.minLevel (by omega) (by omega)
      omega
  · rintro ⟨hzero, hgrid⟩ now message level hlow hhigh
    have hm := mapPythonLevelToEwts_cases level
    simp only at hm
    omega

/-- An operation leaves the id, keeps the thresholds equal and installs its level. -/
theorem LevelOp.run_spec (u : Unicode) (lg : EwtsLogger) (op : LevelOp) :
    Synced (op.run u lg) ∧ (op.run u lg).ewtsId = lg.ewtsId ∧
      (op.run u lg).minLevel = op.installs u lg.ewtsId := by
  rw [op.run_eq u lg]
  exact ⟨rfl, rfl, rfl⟩

/-- Runs keep the thresholds equal. -/
theorem synced_runLevelOps (u : Unicode) {lg : EwtsLogger} (h : Synced lg) (ops : List LevelOp) :
    Synced (runLevelOps u lg ops) :=
  runFrom_invariant (I := Synced) (fun lg op _ _ => (op.run_spec u lg).1) h

/-- From any state with equal thresholds, along a run. -/
theorem predicts_ops_iff (u : Unicode) (ancestors : List Int) {lg : EwtsLogger} (h : Synced lg)
    (ops : List LevelOp) :
    (∀ done, done <+: ops → Predicts u ancestors (runLevelOps u lg done)) ↔
      Aligned ancestors lg.minLevel ∧ ∀ op ∈ ops, Aligned ancestors (op.installs u lg.ewtsId) := by
  change AllStates (LevelOp.run u) (Predicts u ancestors) lg ops ↔ _
  induction ops generalizing lg with
  | nil =>
    simp only [allStates_nil, List.not_mem_nil, false_imp_iff, implies_true, and_true]
    exact predicts_iff u ancestors h
  | cons op ops ih =>
    obtain ⟨hsync, hid, hlevel⟩ := op.run_spec u lg
    have ih := ih hsync
    rw [hid, hlevel] at ih
    rw [allStates_cons, List.forall_mem_cons, predicts_iff u ancestors h, ih]

/-- Along every run of an enabled logger, `isEnabledFor` predicts emission in all states
exactly when the configured threshold and every installed one are aligned. -/
theorem predicts_run_iff (u : Unicode) (ewtsId : Text) (cfg : EwtsConfig) (bridgeLoads : Bool)
    (files : Text × Text) (ancestors : List Int) (hcfg : cfg.enabled = true) (ops : List LevelOp) :
    (∀ done, done <+: ops → Predicts u ancestors
        (runLevelOps u (EwtsLogger.new u ewtsId cfg bridgeLoads files) done)) ↔
      Aligned ancestors cfg.defaultLevel ∧
        ∀ op ∈ ops, Aligned ancestors (op.installs u (u.upper ewtsId)) := by
  obtain ⟨hlevel, hid⟩ := new_enabled u ewtsId bridgeLoads files hcfg
  rw [predicts_ops_iff u ancestors (synced_new u ewtsId cfg bridgeLoads files) ops, hlevel, hid]

/-- A logger that prints to stdout from level `INFO` on. -/
private def stdoutConfig : EwtsConfig := ⟨true, false, none, 20, -1, none⟩

theorem predicts_run_iff_stdout : Predicts Unicode.ascii [] (runLevelOps Unicode.ascii
    (EwtsLogger.new Unicode.ascii (text "lstm") stdoutConfig false ([], []))
      [.setLevel 30, .setLevel 7]) :=
  (predicts_run_iff Unicode.ascii (text "lstm") stdoutConfig false ([], []) [] rfl
    [.setLevel 30, .setLevel 7]).mpr ⟨by decide, by decide⟩ _ (List.prefix_refl _)

/-- At threshold 17 a record of level 18 is announced and dropped, since it is written
as `PERFORM`; at threshold 0 the root's `WARNING` drops what is announced. -/
theorem unaligned_not_predicted :
    (¬ Predicts Unicode.ascii [] (runLevelOps Unicode.ascii
      (EwtsLogger.new Unicode.ascii (text "lstm") stdoutConfig false ([], [])) [.setLevel 17])) ∧
    ¬ Predicts Unicode.ascii [] (runLevelOps Unicode.ascii
      (EwtsLogger.new Unicode.ascii (text "lstm") stdoutConfig false ([], [])) [.setLevel 0]) := by
  constructor
  · intro h
    exact (h default [] 18 (by decide) (by decide)).mpr rfl rfl
  · intro h
    exact (h default [] 20 (by decide) (by decide)).mpr rfl rfl

end Ewts.Python
