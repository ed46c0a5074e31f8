import Ewts.Correctness.Emission

/-!
# Two ways into the Python logger

A record of the wrapped logger reaches the sink with its level mapped down to a level of the
table, `EwtsLogger.log` hands its level on as it is. The table has a name for its own levels
only and takes every other number for `INFO`.
-/

namespace Ewts.Python

/-- The levels of the table that a threshold may have. -/
def thresholds : List Int := [10, 15, 20, 30, 40, 50, 60]

/-! ## The mapping -/

/-- A mapped level reaches a threshold of the table when the level does. -/
theorem le_mapPythonLevelToEwts {minLevel level : Int} (hmin : minLevel ∈ thresholds)
    (h : minLevel ≤ level) : minLevel ≤ mapPythonLevelToEwts level := by
  simp only [thresholds, List.mem_cons, List.not_mem_nil, or_false] at hmin
  unfold mapPythonLevelToEwts
  split_ifs <;> omega

/-- A number that is no level of the table. -/
theorem fixedLevelName_of_unnamed {level : Int} (h : level ∉ thresholds) (h0 : level ≠ 0) :
    fixedLevelName level = text "INFO   " := by
  simp only [thresholds, List.mem_cons, List.not_mem_nil, or_false, not_or] at h
  have hname : logLevelName level = text "INFO" := by
    have hnone : levels.find? (·.2 = level) = none := by
      simp only [levels, List.find?_eq_none, List.forall_mem_cons, decide_eq_true_eq,
        List.not_mem_nil, false_implies, implies_true, and_true]
      omega
    rw [logLevelName, hnone]
  rw [fixedLevelName, hname]
  rfl

/-- The levels from ten on whose name is the name of the level they are mapped to. -/
theorem fixedLevelName_map_iff {level : Int} (h : 10 ≤ level) :
    fixedLevelName (mapPythonLevelToEwts level) = fixedLevelName level ↔
      level ∈ thresholds ∨ 20 ≤ level ∧ level ≤ 29 := by
  by_cases hlevel : level ∈ thresholds
  · refine iff_of_true ?_ (Or.inl hlevel)
    have hmap : ∀ l ∈ thresholds, mapPythonLevelToEwts l = l := by decide
    rw [hmap level hlevel]
  · rw [fixedLevelName_of_unnamed hlevel (by omega), or_iff_right hlevel]
    simp only [thresholds, List.mem_cons, List.not_mem_nil, or_false, not_or] at hlevel
    unfold mapPythonLevelToEwts
    split_ifs
    · exact iff_of_false (by decide) (by omega)
    · exact iff_of_false (by decide) (by omega)
    · exact iff_of_false (by decide) (by omega)
    · exact iff_of_false (by decide) (by omega)
    · exact iff_of_true (by decide) (by omega)
    · exact iff_of_false (by decide) (by omega)
    · exact iff_of_false (by decide) (by omega)

/-! ## The sink -/

/-- Lines behind equal prefixes have the same level field. -/
theorem fixedLevelName_of_prefixed {u : Unicode} {now : Timestamp} {ewtsId line : Text}
    {m n : Int} (h : prefixed (formatPrefix u now ewtsId m) line =
      prefixed (formatPrefix u now ewtsId n) line) : fixedLevelName m = fixedLevelName n := by
  rw [prefixed, prefixed, List.append_cancel_right_eq, List.append_cancel_right_eq] at h
  rw [formatPrefix, formatPrefix, List.append_cancel_left_eq] at h
  exact (List.cons.inj h).2

/-- Two levels that pass the filter leave the same lines in the same sink exactly when they
have the same name and none of them alone is a status. -/
theorem write_eq_iff (u : Unicode) {lg : EwtsLogger} (now : Timestamp) {m n : Int}
    (message : Text) (hstandalone : lg.bridge = false) (hm : lg.minLevel ≤ m)
    (hn : lg.minLevel ≤ n) (hstatus : fixedLevelName m = fixedLevelName n → (m = 60 ↔ n = 60)) :
    write u lg now m message = write u lg now n message ↔
      fixedLevelName m = fixedLevelName n := by
  rw [write_standalone u now message hstandalone (Or.inr hm),
    write_standalone u now message hstandalone (Or.inr hn)]
  constructor
  · intro h
    obtain ⟨line, rest, hlines⟩ := List.exists_cons_of_ne_nil (splitLines_ne_nil message)
    rw [hlines, List.map_cons, List.map_cons] at h
    have hfirst := (List.cons.inj h).1
    cases hpath : lg.logPath with
    | none =>
      simp only [hpath, Output.print.injEq] at hfirst
      exact fixedLevelName_of_prefixed hfirst
    | some logPath =>
      simp only [hpath, Output.append.injEq] at hfirst
      exact fixedLevelName_of_prefixed hfirst.2
  · intro h
    have hcolumns : formatPrefix u now lg.ewtsId m = formatPrefix u now lg.ewtsId n := by
      rw [formatPrefix, formatPrefix, h]
    simp only [hcolumns, hstatus h]

section Run

variable {u : Unicode} {lg : EwtsLogger}

/-- With equal thresholds the paths agree on what both filter, on the levels of the table and
between `INFO` and the next level. -/
theorem log_eq_submit_iff (h : Synced lg) (hstandalone : lg.bridge = false)
    (hmin : lg.minLevel ∈ thresholds) (ancestors : List Int) (now : Timestamp) (n : Int)
    (message : Text) : lg.log u now n message = submit u lg ancestors now n message ↔
      n < lg.minLevel ∨ n ∈ thresholds ∨ 20 ≤ n ∧ n ≤ 29 := by
  have hbounds : 10 ≤ lg.minLevel ∧ lg.minLevel ≤ 60 := by
    simp only [thresholds, List.mem_cons, List.not_mem_nil, or_false] at hmin
    omega
  have hlevel : effectiveLevel lg.pyLevel ancestors = lg.minLevel := by
    unfold Synced at h
    rw [effectiveLevel_of_ne_zero (by omega), h]
  unfold submit
  rw [hlevel, EwtsLogger.log]
  by_cases hfiltered : n < lg.minLevel
  · rw [if_neg (Int.not_le.mpr hfiltered)]
    refine iff_of_true ?_ (Or.inl hfiltered)
    by_contra hne
    rcases (write_ne_nil_iff u lg now n message).mp hne with hstatus | hpass
    · omega
    · omega
  · have hpass : lg.minLevel ≤ n := Int.not_lt.mp hfiltered
    have hten : 10 ≤ n := by omega
    have hname := fixedLevelName_map_iff hten
    rw [if_pos hpass, or_iff_right hfiltered, ← hname, eq_comm]
    apply write_eq_iff u now message hstandalone (le_mapPythonLevelToEwts hmin hpass) hpass
    intro heq
    -- Where the names agree the mapping does not create a status.
    have hn := hname.mp heq
    simp only [thresholds, List.mem_cons, List.not_mem_nil, or_false] at hn
    unfold mapPythonLevelToEwts
    split_ifs <;> omega

end Run

/-- A direct call and a record emit the same exactly when both are filtered, or the level is
one of the table, or between `INFO` and the next level. -/
theorem log_paths_agree_iff (u : Unicode) (ewtsId : Text) (cfg : EwtsConfig) (bridgeLoads : Bool)
    (files : Text × Text) (ops : List LevelOp) {lg : EwtsLogger}
    (hlg : lg = runLevelOps u (.new u ewtsId cfg bridgeLoads files) ops)
    (hstandalone : lg.bridge = false) (hmin : lg.minLevel ∈ thresholds) (ancestors : List Int)
    (now : Timestamp) (n : Int) (message : Text) :
    lg.log u now n message = submit u lg ancestors now n message ↔
      n < lg.minLevel ∨ n ∈ thresholds ∨ 20 ≤ n ∧ n ≤ 29 := by
  have hsync : Synced lg := by
    rw [hlg]
    exact synced_runLevelOps u (synced_new u ewtsId cfg bridgeLoads files) ops
  exact log_eq_submit_iff hsync hstandalone hmin ancestors now n message

/-- A standalone logger at `INFO` without files. -/
private def infoConfig : EwtsConfig := ⟨true, false, none, 20, -1, none⟩

private def infoLogger : EwtsLogger := .new .ascii (text "PET") infoConfig false ([], [])

theorem log_paths_agree_at_warning :
    infoLogger.log .ascii default 30 (text "dry") =
      submit .ascii infoLogger [] default 30 (text "dry") :=
  (log_paths_agree_iff .ascii (text "PET") infoConfig false ([], []) [] rfl (by decide) (by decide)
    [] default 30 (text "dry")).mpr (Or.inr (Or.inl (by decide)))

/-- A level between `WARNING` and `SEVERE` is an `INFO` to the one path and a `WARNING` to the
other. -/
theorem log_paths_differ_above_warning :
    infoLogger.bridge = false ∧ infoLogger.minLevel ∈ thresholds ∧
      infoLogger.log .ascii default 35 (text "dry") ≠
        submit .ascii infoLogger [] default 35 (text "dry") := by
  decide

end Ewts.Python
