import Ewts.Runtime.Fortran.Logger
import Ewts.Runtime.Python.Registry

/-!
# Starting from any environment

Most settings fall back to a default when they cannot be read. The rank of the Fortran runtime
and the level that the Python runtime prints do not: there the start of a logger ends the run.
-/

namespace Ewts

namespace Fortran

/-- The rank is unset, too long to be read, or an integer to a list-directed read. -/
def RankReadable (read : ListRead) (env : Environ) : Prop :=
  ∀ v, env (text "EWTS_RANK") = some v → 16 < v.length ∨ (read.integer (assign 16 v)).isSome = true

/-- Only the read of the rank can stop an initialisation. -/
theorem initLoggerState_isSome_iff (read : ListRead) (env : Environ) (bridge : Bool)
    (vars : Variables) (logger : LoggerState) :
    (initLoggerState read env bridge vars logger).isSome = true ↔
      logger.initialized = true ∨ RankReadable read env := by
  have hrank : (vars.readRank read env).isSome = true ↔ RankReadable read env := by
    unfold Variables.readRank RankReadable
    cases env (text "EWTS_RANK") with
    | none => simp
    | some v =>
      simp only [Option.some.injEq, forall_eq']
      split
      · rename_i hlong
        exact iff_of_true rfl (Or.inl hlong)
      · rename_i hshort
        rw [Option.isSome_map, or_iff_right hshort]
  unfold initLoggerState
  cases logger.initialized with
  | true => simp
  | false => simpa using hrank

end Fortran

namespace Python

/-! ## Calls that return -/

/-- A call returns exactly when the environment has a property, and leaves what is found there. -/
structure Py.ReturnsIff {α : Type} (call : Py α) (P : Environ → Prop) : Prop where
  returns : ∀ p, (call.run p).1.isSome = true ↔ P p.view
  view : ∀ p, (call.run p).2.view = p.view

section Rules

variable {α β : Type} {call : Py α} {rest : α → Py β} {P : Environ → Prop}
  {Q : α → Environ → Prop}

theorem Py.returnsIff_pure (a : α) : Py.ReturnsIff (pure a) fun _ => True :=
  ⟨fun _ => iff_of_true rfl trivial, fun _ => rfl⟩

theorem Py.returnsIff_of (r : Option α) : Py.ReturnsIff (Py.of r) fun _ => r.isSome = true :=
  ⟨fun _ => Iff.rfl, fun _ => rfl⟩

theorem Py.ReturnsIff.congr {P' : Environ → Prop} (h : Py.ReturnsIff call P)
    (hiff : ∀ env, P env ↔ P' env) : Py.ReturnsIff call P' :=
  ⟨fun p => (h.returns p).trans (hiff _), h.view⟩

/-- A value that is read from the environment goes on to the rest. -/
theorem Py.ReturnsIff.bindLift {read : StateM Process α} {f : Environ → α} (h : ReadsView read f)
    (hrest : ∀ a, Py.ReturnsIff (rest a) (Q a)) :
    Py.ReturnsIff ((liftM read : Py α) >>= rest) fun env => Q (f env) env := by
  constructor
  · intro p
    change ((rest (read p).1).run (read p).2).1.isSome = true ↔ _
    rw [(hrest _).returns, h.view, h.value]
  · intro p
    change ((rest (read p).1).run (read p).2).2.view = _
    rw [(hrest _).view, h.view]

/-- One call after the other. -/
theorem Py.ReturnsIff.bind {R : Environ → Prop} (h : Py.ReturnsIff call P)
    (hrest : ∀ a, Py.ReturnsIff (rest a) R) :
    Py.ReturnsIff (call >>= rest) fun env => P env ∧ R env := by
  constructor
  · intro p
    have hreturns := h.returns p
    have hview := h.view p
    rw [Py.run_bind]
    cases hcall : call.run p with
    | mk a q =>
      rw [hcall] at hreturns hview
      cases a with
      | none => exact iff_of_false Bool.false_ne_true fun hP => nomatch hreturns.mpr hP.1
      | some a =>
        simp only [(hrest a).returns, hview]
        exact ⟨fun hR => ⟨hreturns.mp rfl, hR⟩, And.right⟩
  · intro p
    have hview := h.view p
    rw [Py.run_bind]
    cases hcall : call.run p with
    | mk a q =>
      rw [hcall] at hview
      cases a with
      | none => exact hview
      | some a => exact ((hrest a).view q).trans hview

/-- A computed value goes on to the rest. -/
theorem Py.ReturnsIff.bindOf {r : Option α} (hrest : ∀ a, Py.ReturnsIff (rest a) (Q a)) :
    Py.ReturnsIff (Py.of r >>= rest) fun env => ∃ a, r = some a ∧ Q a env := by
  cases r with
  | none => exact ⟨fun _ => iff_of_false Bool.false_ne_true (by simp), fun _ => rfl⟩
  | some a => exact (hrest a).congr fun env => by simp

end Rules

/-! ## Notices -/

/-- `stdout` encodes a text character by character, and takes ASCII. -/
structure Encodes (host : Host) (ok : CodePoint → Bool) : Prop where
  encodes : ∀ t, host.encodes t = t.all ok
  ascii : ∀ c : CodePoint, c.val < 0x80 → ok c = true

/-- A decimal digit has a value below ten. -/
def Unicode.DecimalDigits (u : Unicode) : Prop := ∀ c d, u.decimal c = some d → d < 10

/-- The level text that a starting logger prints. -/
def printedLevel (id : Text) (env : Environ) : Text :=
  if stripped env (id ++ text "_LOGLEVEL") ≠ [] then stripped env (id ++ text "_LOGLEVEL")
  else stripped env (text "EWTS_LOG_LEVEL")

/-- A level text that can be printed: digits that are a number, or a name. -/
def LevelPrintable (u : Unicode) (ok : CodePoint → Bool) (v : Text) : Prop :=
  if u.isDigits v then (u.toInt v).isSome = true else (u.upper v).all ok = true

instance (u : Unicode) (ok : CodePoint → Bool) (v : Text) : Decidable (LevelPrintable u ok v) :=
  inferInstanceAs (Decidable (if u.isDigits v then _ else _))

/-- A character without a value stops the loop of `int`. -/
theorem foldl_digits_none (u : Unicode) (s : Text) :
    s.foldl (fun (n : Option Nat) c => n.bind fun n => (u.decimal c).map fun d => 10 * n + d)
      none = none := by
  induction s with
  | nil => rfl
  | cons c s ih => exact ih

/-- Each digit multiplies the bound of a number by ten. -/
theorem foldl_digits_lt {u : Unicode} (hdigits : u.DecimalDigits) {s : Text} {m n : Nat}
    (h : s.foldl (fun n c => n.bind fun n => (u.decimal c).map fun d => 10 * n + d)
      (some m) = some n) : n < (m + 1) * 10 ^ s.length := by
  induction s generalizing m with
  | nil =>
    cases h
    simp
  | cons c s ih =>
    rw [List.foldl_cons, Option.bind_some] at h
    cases hd : u.decimal c with
    | none =>
      rw [hd, Option.map_none, foldl_digits_none] at h
      cases h
    | some d =>
      rw [hd, Option.map_some] at h
      have hlt := hdigits c d hd
      calc n < (10 * m + d + 1) * 10 ^ s.length := ih h
        _ ≤ ((m + 1) * 10) * 10 ^ s.length := Nat.mul_le_mul_right _ (by omega)
        _ = (m + 1) * 10 ^ (c :: s).length := by
          rw [List.length_cons, Nat.pow_succ, Nat.mul_assoc, Nat.mul_comm 10]

/-- What `int` accepts `str` prints: it has no more digits. -/
theorem length_decimal_toInt {u : Unicode} (hdigits : u.DecimalDigits) {s : Text} {n : Nat}
    (h : u.toInt s = some n) : (decimal n).length ≤ 4300 := by
  have hlength : ∀ k, 0 < k → s.length ≤ k →
      s.foldl (fun n c => n.bind fun n => (u.decimal c).map fun d => 10 * n + d) (some 0) = some n →
        (decimal n).length ≤ k := by
    intro k hk hlen hm
    have hlt := foldl_digits_lt hdigits hm
    rw [Nat.zero_add, Nat.one_mul] at hlt
    rw [decimal, List.length_map, Nat.length_toDigits_le_iff (by decide) hk]
    exact Nat.lt_of_lt_of_le hlt (Nat.pow_le_pow_right (by decide) hlen)
  unfold Unicode.toInt at h
  split at h
  · rename_i hlen
    exact hlength 4300 (by decide) hlen h
  · cases h

section Printing

variable {u : Unicode} {host : Host} {ok : CodePoint → Bool} (henc : Encodes host ok)
include henc

theorem Encodes.all_ascii {t : Text} (h : ∀ c ∈ t, c.val < 0x80) : t.all ok = true :=
  List.all_eq_true.mpr fun c hc => henc.ascii c (h c hc)

theorem Encodes.all_decimal (n : Nat) : (decimal n).all ok = true := by
  apply henc.all_ascii
  intro c hc
  have hdigit := isDigit_of_mem_decimal hc
  simp only [CodePoint.isDigit, Bool.and_eq_true, decide_eq_true_eq] at hdigit
  omega

/-- The name of a level is printed when its digits are. -/
theorem levelName_spec {level : Int} (h : (decimal level.natAbs).length ≤ 4300) :
    ∃ name, levelName level = some name ∧ name.all ok = true := by
  have hnames : ∀ l ∈ levels, ∀ c ∈ l.1, c.val < 0x80 := by decide
  have hdigits : ∀ s ∈ intStr level, s.all ok = true := by
    intro s hs
    rw [intStr, if_neg (by omega)] at hs
    cases hs
    split
    · rw [List.all_cons, henc.all_decimal, henc.ascii _ (by decide)]
      rfl
    · exact henc.all_decimal _
  have hstr : ∃ s, intStr level = some s := ⟨_, if_neg (by omega)⟩
  obtain ⟨s, hs⟩ := hstr
  refine ⟨_, by rw [levelName, hs, Option.map_some], ?_⟩
  cases hfind : levels.find? (·.2 = level) with
  | none => exact hdigits s hs
  | some l => exact henc.all_ascii (hnames l (List.mem_of_find?_eq_some hfind))

/-- A level text is printed exactly when it is printable. -/
theorem envLevelName_iff (hdigits : u.DecimalDigits) (v : Text) :
    (∃ name, envLevelName u v = some name ∧ name.all ok = true) ↔ LevelPrintable u ok v := by
  unfold envLevelName LevelPrintable
  split
  · cases hv : u.toInt v with
    | none => simp
    | some n =>
      have hlength : (decimal (n : Int).natAbs).length ≤ 4300 := length_decimal_toInt hdigits hv
      obtain ⟨name, hname, hok⟩ := levelName_spec henc hlength
      exact iff_of_true ⟨name, hname, hok⟩ rfl
  · simp

/-- A line is printed exactly when all its characters are. -/
theorem returnsIff_printLine (line : Text) :
    Py.ReturnsIff (printLine host line) fun _ => line.all ok = true := by
  apply (Py.returnsIff_of _).congr
  intro env
  rw [henc.encodes]
  cases line.all ok <;> simp

/-- The last notice names the threshold. -/
theorem returnsIff_threshold {linePrefix id : Text} {minLevel : Int}
    (hpre : linePrefix.all ok = id.all ok) (hlevel : (decimal minLevel.natAbs).length ≤ 4300) :
    Py.ReturnsIff (Py.of (levelName minLevel) >>= fun name =>
      printLine host (linePrefix ++ text " log level set to " ++ name)) fun _ =>
        id.all ok = true := by
  obtain ⟨last, hlast, hlastOk⟩ := levelName_spec henc hlevel
  have hset : (text " log level set to ").all ok = true := henc.all_ascii (by decide)
  refine (Py.ReturnsIff.bindOf fun _ => returnsIff_printLine henc _).congr fun env => ?_
  simp only [hlast, Option.some.injEq, exists_eq_left', List.all_append, hpre, hlastOk, hset,
    Bool.and_true]

/-- A notice about a level text, and the last one. -/
theorem returnsIff_levelText (hdigits : u.DecimalDigits) {linePrefix id front : Text}
    {minLevel : Int} (hpre : linePrefix.all ok = id.all ok)
    (hlevel : (decimal minLevel.natAbs).length ≤ 4300) (hfront : front.all ok = id.all ok)
    (v : Text) :
    Py.ReturnsIff (Py.of (envLevelName u v) >>= fun name =>
      printLine host (front ++ name) >>= fun _ =>
        Py.of (levelName minLevel) >>= fun name =>
          printLine host (linePrefix ++ text " log level set to " ++ name)) fun _ =>
      id.all ok = true ∧ LevelPrintable u ok v := by
  refine (Py.ReturnsIff.bindOf fun _ => (returnsIff_printLine henc _).bind fun _ =>
    returnsIff_threshold henc hpre hlevel).congr fun env => ?_
  rw [← envLevelName_iff henc hdigits]
  simp only [List.all_append, hfront, Bool.and_eq_true]
  constructor
  · rintro ⟨name, hname, ⟨hid, hok⟩, _⟩
    exact ⟨hid, name, hname, hok⟩
  · rintro ⟨hid, name, hname, hok⟩
    exact ⟨name, hname, ⟨hid, hok⟩, hid⟩

/-- The notices are printed when the id and the level text can be. -/
theorem returnsIff_printLevel (hdigits : u.DecimalDigits) {linePrefix id : Text} {minLevel : Int}
    (hpre : linePrefix.all ok = id.all ok)
    (hlevel : (decimal minLevel.natAbs).length ≤ 4300) :
    Py.ReturnsIff (printLevel u host linePrefix id minLevel) fun env =>
      id.all ok = true ∧ LevelPrintable u ok (printedLevel id env) := by
  have hall : ∀ t : Text, (∀ c ∈ t, c.val < 0x80) → t.all ok = true := fun t => henc.all_ascii
  unfold printLevel
  refine ((returnsIff_printLine henc _).bind fun _ => Py.ReturnsIff.bindLift
    (Q := fun v env => id.all ok = true ∧ LevelPrintable u ok
      (if strip v ≠ [] then strip v else stripped env (text "EWTS_LOG_LEVEL")))
    (readsView_getenvAny _ _) fun v => Py.ReturnsIff.bindLift
      (Q := fun w env => id.all ok = true ∧ LevelPrintable u ok
        (if strip v ≠ [] then strip v else strip w))
      (readsView_getenvAny _ _) fun w => ?_).congr fun env => ?_
  · simp only
    by_cases hv : strip v ≠ []
    · simp only [if_pos hv]
      apply returnsIff_levelText henc hdigits hpre hlevel
      simp only [List.all_append, hpre, hall (text " log level from env var ") (by decide),
        hall (text "_LOGLEVEL") (by decide), hall (text " is ") (by decide), Bool.and_true,
        Bool.and_self]
    · simp only [if_neg hv]
      by_cases hw : strip w ≠ []
      · simp only [if_pos hw]
        apply returnsIff_levelText henc hdigits hpre hlevel
        rw [List.all_append, hpre,
          hall (text " log level from env var EWTS_LOG_LEVEL is ") (by decide), Bool.and_true]
      · simp only [if_neg hw]
        refine ((returnsIff_printLine henc _).bind fun _ =>
          returnsIff_threshold henc hpre hlevel).congr fun env => ?_
        have hnil : LevelPrintable u ok (strip w) := by
          rw [not_not.mp hw]
          exact rfl
        have hdefault := hall (text (" no module-specific or default EWTS log level env var " ++
          "found; defaulting to INFO")) (by decide)
        rw [List.all_append, hpre, hdefault, Bool.and_true]
        exact and_congr_right fun hid => iff_of_true hid hnil
  · rw [List.all_append, hpre, hall (text " logging is ENABLED") (by decide), Bool.and_true]
    exact and_self_left

/-- A notice of the first start. -/
theorem returnsIff_notice (due : Bool) (line : Text) :
    Py.ReturnsIff (Py.when due (printLine host line)) fun _ =>
      due = true → line.all ok = true := by
  cases due with
  | false => exact (Py.returnsIff_pure ()).congr fun _ => by simp
  | true => exact (returnsIff_printLine henc line).congr fun _ => by simp

/-- A start without a bridge and a directory returns, unless a notice that is due cannot be
printed. -/
theorem returnsIff_start (hdigits : u.DecimalDigits) (due : Bool) (id : Text) {cfg : EwtsConfig}
    (hngen : cfg.runningInNgen = false) (hdir : cfg.logDir = none)
    (hlevel : (decimal cfg.defaultLevel.natAbs).length ≤ 4300) :
    Py.ReturnsIff (EwtsObject.start u host due id cfg) fun env => due = true →
      id.all ok = true ∧ (cfg.enabled = true → LevelPrintable u ok (printedLevel id env)) := by
  have hall : ∀ t : Text, (∀ c ∈ t, c.val < 0x80) → t.all ok = true := fun t => henc.all_ascii
  -- All notices begin with ASCII and the id.
  have hpre : ((if 0 ≤ cfg.mpiRank then text "[rank " ++ decimal cfg.mpiRank.toNat ++
      text "] EWTS" else text "EWTS") ++ ch ' ' :: id).all ok = id.all ok := by
    have hfront : (if 0 ≤ cfg.mpiRank then text "[rank " ++ decimal cfg.mpiRank.toNat ++
        text "] EWTS" else text "EWTS").all ok = true := by
      split
      · rw [List.all_append, List.all_append, hall (text "[rank ") (by decide),
          henc.all_decimal, hall (text "] EWTS") (by decide)]
        rfl
      · exact hall _ (by decide)
    rw [List.all_append, List.all_cons, hfront, henc.ascii (ch ' ') (by decide), Bool.true_and,
      Bool.true_and]
  unfold EwtsObject.start
  simp only [hngen, hdir]
  cases henabled : cfg.enabled with
  | false =>
    refine ((returnsIff_notice henc due _).bind fun _ => Py.returnsIff_pure _).congr fun env => ?_
    rw [List.all_append, hpre, hall (text " logging is DISABLED") (by decide), Bool.and_true]
    simp
  | true =>
    have hnotices : Py.ReturnsIff (Py.when due (printLevel u host ((if 0 ≤ cfg.mpiRank then
        text "[rank " ++ decimal cfg.mpiRank.toNat ++ text "] EWTS" else text "EWTS") ++
          ch ' ' :: id) id cfg.defaultLevel)) fun env =>
        due = true → id.all ok = true ∧ LevelPrintable u ok (printedLevel id env) := by
      cases due with
      | false => exact (Py.returnsIff_pure ()).congr fun _ => by simp
      | true => exact (returnsIff_printLevel henc hdigits hpre hlevel).congr fun _ => by simp
    refine (hnotices.bind fun _ => (Py.returnsIff_pure false).bind fun bridge =>
      (returnsIff_notice henc due _).bind fun _ => Py.returnsIff_pure _).congr fun env => ?_
    rw [List.all_append, hpre, hall (text " using stdout logging") (by decide), Bool.and_true]
    constructor
    · rintro ⟨hnotice, _⟩ hdue
      exact ⟨(hnotice hdue).1, fun _ => (hnotice hdue).2⟩
    · intro h
      exact ⟨fun hdue => ⟨(h hdue).1, (h hdue).2 rfl⟩, trivial, fun hdue => (h hdue).1, trivial⟩

end Printing

/-! ## Construction -/

/-- No threshold of an environment has more digits than `str` prints. -/
theorem length_decimal_levelIn {u : Unicode} (hdigits : u.DecimalDigits) (id : Text)
    (env : Environ) : (decimal (levelIn u id env).natAbs).length ≤ 4300 := by
  rcases levelIn_cases u id env with ⟨v, hv⟩ | hdefault
  · rcases parseLevelValue_cases hv with ⟨n, hn, hl⟩ | ⟨p, hp, hl⟩
    · rw [hl]
      exact length_decimal_toInt hdigits hn
    · have hnames : ∀ p ∈ levels, (decimal p.2.natAbs).length ≤ 4300 := by decide
      rw [hl]
      exact hnames p hp
  · rw [hdefault]
    decide

/-- A construction without a bridge, a log directory and an override returns, unless a notice of
the first start cannot be printed. -/
theorem construct_isSome_iff {u : Unicode} (hdigits : u.DecimalDigits) {host : Host}
    {ok : CodePoint → Bool} (henc : Encodes host ok) (r : Registry) (ewtsId : Text)
    (hoverride : r.overrides (u.upper ewtsId) = none)
    (hngen : stripped host.process.view (text "EWTS_USE_NGEN_BRIDGE") = [])
    (hdir : stripped host.process.view (text "EWTS_LOG_DIR") = []) :
    (r.construct u host ewtsId).isSome = true ↔ r.initPrinted (u.upper ewtsId) = true ∨
      (u.upper ewtsId).all ok = true ∧ (enabledIn u host.process.view = true →
        LevelPrintable u ok (printedLevel (u.upper ewtsId) host.process.view)) := by
  have hload := readsView_loadConfig u host.home r.overrides (u.upper ewtsId)
  obtain ⟨cfg, hcfg, henabled, hstandalone, hnoDir, hlevel⟩ : ∃ cfg,
      configIn u host.home r.overrides (u.upper ewtsId) host.process.view = some cfg ∧
        cfg.enabled = enabledIn u host.process.view ∧ cfg.runningInNgen = false ∧
          cfg.logDir = none ∧
            cfg.defaultLevel = levelIn u (u.upper (u.upper ewtsId)) host.process.view := by
    refine ⟨⟨enabledIn u host.process.view, false, none,
      levelIn u (u.upper (u.upper ewtsId)) host.process.view,
      (u.int (stripped host.process.view (text "EWTS_RANK"))).getD (-1), none⟩, ?_, rfl, rfl, rfl,
      rfl⟩
    simp only [configIn, logDirIn, hdir, hngen, u.upper_upper_text, hoverride, if_true, ne_eq,
      not_true_eq_false, decide_false, Option.map_some, Option.map_none, Option.getD_none]
  have hstart := returnsIff_start henc hdigits (!r.initPrinted (u.upper ewtsId)) (u.upper ewtsId)
    hstandalone hnoDir (by rw [hlevel]; exact length_decimal_levelIn hdigits _ _)
  simp only [Registry.construct, EwtsObject.init, Py.run_bind]
  have hvalue := hload.value host.process
  have hview := hload.view host.process
  cases hcall : (loadConfig u host.home r.overrides (u.upper ewtsId)).run host.process with
  | mk loaded p =>
    rw [hcall] at hvalue hview
    cases hvalue.trans hcfg
    rw [hstart.returns, hview, henabled]
    cases r.initPrinted (u.upper ewtsId) with
    | true => exact iff_of_true (fun h => absurd h Bool.false_ne_true) (Or.inl rfl)
    | false => exact ⟨fun h => Or.inr (h rfl), fun h _ => h.resolve_left Bool.false_ne_true⟩

end Python

/-- A machine with one variable. -/
def variableHost (name value : String) : Python.Host where
  process := ⟨Environ.setenv (fun _ => none) (text name) (text value), fun _ => none⟩
  now := default
  home := id
  loads _ := false
  loadError := id
  encodes _ := true

/-- The variables of the module before the first initialisation. -/
def freshVariables : Fortran.Variables := ⟨Fortran.blanks 64, Fortran.blanks 16, -1, 0⟩

/-- A logger that has not been initialised. -/
def freshLogger : Fortran.LoggerState :=
  ⟨text "TOPMODEL", Fortran.assign 16 (text "TOPMODEL"), false, true, 20, -1, []⟩

theorem Python.Unicode.decimalDigits_ascii : Python.Unicode.ascii.DecimalDigits := by
  intro c d hd
  have hdigit : c.isDigit = true ∧ c.digitValue = d := by
    simpa [Python.Unicode.ascii] using hd
  have hc := hdigit.1
  simp only [CodePoint.isDigit, Bool.and_eq_true, decide_eq_true_eq] at hc
  rw [← hdigit.2, CodePoint.digitValue]
  omega

/-- `str.isdigit` accepts superscripts, to which `int` gives no value. -/
def Python.Unicode.superscripts : Python.Unicode :=
  { Python.Unicode.ascii with
    isDigit := fun c => c.isDigit || c.val = 0xB2 || c.val = 0xB3 || c.val = 0xB9
    isDigit_ascii := fun c hc => by
      have h2 : c.val ≠ 0xB2 := by omega
      have h3 : c.val ≠ 0xB3 := by omega
      have h1 : c.val ≠ 0xB9 := by omega
      simp [h1, h2, h3] }

end Ewts
