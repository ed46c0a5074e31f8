import Ewts.Correctness.NativeEnvironment
import Ewts.Runtime.Python.Config

/-!
# The environment of the C and Python runtimes

Both runtimes share their variables, not the spellings that they understand. A spelling is
either read by both, as the same number, or by the C runtime alone, and the threshold agrees
only for some combinations of the two level variables. A word that disables logging in C
leaves it enabled in Python.
-/

namespace Ewts

/-- A printable ASCII value that fits the buffers of the C runtime, with numbers that fit an
`int`. -/
structure SharedValue (v : Text) : Prop where
  printable : ∀ c ∈ v, 0x20 ≤ c.val ∧ c.val ≤ 0x7E
  fits : v.length ≤ 31
  small : isDigitString (unsigned (trim v)) = true →
    decimalValue (unsigned (trim v)) < 0x80000000

/-- A printable ASCII id of at least one character, without blanks at its ends. -/
structure SharedId (id : Text) : Prop where
  ne : id ≠ []
  printable : ∀ c ∈ id, 0x20 ≤ c.val ∧ c.val ≤ 0x7E
  trimmed : trim id = id
  fits : id.length ≤ 54

/-- How a level is spelled. -/
inductive LevelWord where
  /-- Both runtimes read the number. -/
  | shared (n : Nat)
  /-- Only the C runtime reads the number; for 0 that is no level there either. -/
  | native (n : Nat)

/-- The names of levels. -/
def levelWords : List (Text × LevelWord) :=
  [("DEBUG", .shared 10), ("PERFORM", .shared 15), ("INFO", .shared 20), ("WARN", .native 30),
    ("WARNING", .shared 30), ("ERROR", .native 40), ("SEVERE", .shared 40), ("FATAL", .shared 50),
    ("CRITICAL", .native 50), ("STATUS", .shared 60), ("NOTSET", .shared 0),
    ("NONE", .native 0)].map fun e => (text e.1, e.2)

/-- The spelling of a value: digits, digits behind a plus, or a name. -/
def levelWord (v : Text) : LevelWord :=
  let s := trim v
  if isDigitString s then .shared (decimalValue s)
  else if s.head? = some (ch '+') ∧ isDigitString (s.drop 1) then .native (decimalValue (s.drop 1))
  else (levelWords.lookup (s.map CodePoint.toUpper)).getD (.native 0)

namespace LevelWord

/-- The spellings of the module's and of the general variable with which the thresholds of
the two runtimes agree. -/
def Agree : LevelWord → LevelWord → Prop
  | .shared n, _ => n ≠ 0
  | .native n, .shared m => m ≠ 0 ∧ (n = 0 ∨ n = m)
  | .native n, .native m => n = 20 ∨ n = 0 ∧ (m = 0 ∨ m = 20)

instance : (own fallback : LevelWord) → Decidable (own.Agree fallback)
  | .shared n, _ => inferInstanceAs (Decidable (n ≠ 0))
  | .native n, .shared m => inferInstanceAs (Decidable (m ≠ 0 ∧ (n = 0 ∨ n = m)))
  | .native n, .native m => inferInstanceAs (Decidable (n = 20 ∨ n = 0 ∧ (m = 0 ∨ m = 20)))

/-- What the C runtime reads; 0 counts as unset. -/
def inC : LevelWord → Int
  | .shared n | .native n => n

/-- What the Python runtime reads. -/
def inPython : LevelWord → Option Int
  | .shared n => some n
  | .native _ => none

/-- The thresholds that the runtimes find agree exactly for these spellings. -/
theorem agree_iff (own fallback : LevelWord) : own.Agree fallback ↔
    ((own.inPython.or fallback.inPython).getD 20 : Int) =
      if own.inC ≠ 0 then own.inC else if fallback.inC ≠ 0 then fallback.inC else 20 := by
  cases own with
  | shared n =>
    by_cases hn : n = 0
    · -- Zero is a level for Python only.
      subst hn
      cases fallback <;> simp [Agree, inC, inPython] <;> grind
    · simp [Agree, inC, inPython, hn]
  | native n =>
    cases fallback with
    | shared m =>
      simp only [Agree, inC, inPython, Option.none_or, Option.getD_some]
      grind
    | native m =>
      simp only [Agree, inC, inPython, Option.none_or, Option.getD_none]
      grind

end LevelWord

/-! ## Names -/

theorem inC_of_names (s : Text) :
    ((C.levelNames.find? fun e => C.streqCi s e.1).map Prod.snd).getD 0 =
      ((levelWords.lookup (C.toupperAll s)).getD (.native 0)).inC := by
  have hnames : (C.levelNames.map fun e => (C.toupperAll e.1, e.2)) =
      levelWords.map fun e => (e.1, e.2.inC) := by decide
  have hmap : ∀ l : List (Text × LevelWord), ∀ t,
      (l.map fun e => (e.1, e.2.inC)).lookup t = (l.lookup t).map LevelWord.inC := by
    intro l t
    induction l with
    | nil => rfl
    | cons e l ih =>
      rw [List.map_cons, List.lookup_cons, List.lookup_cons]
      cases t == e.1 with
      | true => rfl
      | false => exact ih
  rw [C.find_streqCi, hnames, hmap]
  cases levelWords.lookup (C.toupperAll s) <;> rfl

private theorem lookup_of_not_mem {β : Type} {l : List (Text × β)} {t : Text}
    (h : t ∉ l.map Prod.fst) : l.lookup t = none := by
  rw [List.lookup_eq_none_iff]
  intro e he
  rw [bne_iff_ne]
  rintro rfl
  exact h (List.mem_map_of_mem he)

/-- The level table of Python lists the names that both runtimes know. -/
theorem inPython_of_names (t : Text) :
    Python.levels.lookup t = ((levelWords.lookup t).getD (.native 0)).inPython := by
  by_cases hknown : t ∈ levelWords.map Prod.fst
  · revert t
    decide
  · have hpython : ∀ name ∈ Python.levels.map Prod.fst, name ∈ levelWords.map Prod.fst := by
      decide
    rw [lookup_of_not_mem hknown, lookup_of_not_mem fun h => hknown (hpython t h)]
    rfl

/-- No name starts with a sign. -/
theorem lookup_signed {t : Text} (h : t.head? = some (ch '-') ∨ t.head? = some (ch '+')) :
    levelWords.lookup t = none := by
  have hnames : ∀ name ∈ levelWords.map Prod.fst,
      name.head? ≠ some (ch '-') ∧ name.head? ≠ some (ch '+') := by decide
  apply lookup_of_not_mem
  intro hmem
  rcases h with h | h
  · exact (hnames t hmem).1 h
  · exact (hnames t hmem).2 h

theorem head?_toupperAll {s : Text} {c : CodePoint} (h : s.head? = some c) :
    (s.map CodePoint.toUpper).head? = some c.toUpper := by
  rw [List.head?_map, h, Option.map_some]

theorem isDigitString_head {s : Text} (h : isDigitString s = true) :
    s.head? ≠ some (ch '-') ∧ s.head? ≠ some (ch '+') := by
  obtain ⟨_, hall⟩ := isDigitString_iff.mp h
  constructor
  · intro hhead
    exact absurd (hall _ (List.mem_of_mem_head? hhead)) (by decide)
  · intro hhead
    exact absurd (hall _ (List.mem_of_mem_head? hhead)) (by decide)

/-! ## Values -/

section Value

variable {v : Text} (h : SharedValue v)
include h

theorem SharedValue.plainValue : PlainValue v := by
  constructor
  · intro c hc
    rw [isPlain_iff]
    exact Or.inl (h.printable c hc)
  · have hle : (trim v).length ≤ v.length :=
      (List.rdropWhile_prefix ..).length_le.trans (List.dropWhile_sublist _).length_le
    exact hle.trans h.fits

theorem SharedValue.ascii : ∀ c ∈ trim v, c.val < 0x80 := by
  intro c hc
  have := h.printable c (mem_of_mem_trim hc)
  omega

/-- The space is the only white space. -/
theorem SharedValue.strip_eq : Python.strip v = trim v := by
  apply trimWith_congr
  intro c hc
  have hprintable := h.printable c hc
  rw [Bool.eq_iff_iff, isSpaceC_iff]
  simp only [Python.isSpace, Bool.or_eq_true, Bool.and_eq_true, decide_eq_true_eq]
  omega

theorem SharedValue.trimCopy_eq_trim : C.trimCopy 32 v = trim v := by
  rw [C.trimCopy, h.plainValue.cStr_eq]
  exact List.take_of_length_le h.plainValue.fits

/-- The C runtime reads a spelling. -/
theorem SharedValue.parseLevel_eq_inC : C.parseLevel v = (levelWord v).inC := by
  have hsmall := h.small
  have hhead : ∀ c ∈ (trim v).head?, c.isSpaceC = false := head?_trimWith
  rw [C.parseLevel, h.trimCopy_eq_trim, levelWord]
  generalize trim v = s at hsmall hhead
  simp only [inC_of_names]
  by_cases hnil : s = []
  · subst hnil
    rfl
  rw [if_neg hnil]
  by_cases hdigits : isDigitString s = true
  · obtain ⟨hminus, hplus⟩ := isDigitString_head hdigits
    have hunsigned : unsigned s = s := by simp [unsigned, hminus, hplus]
    have hnumber : isDigitString (unsigned s) = true := by rwa [hunsigned]
    obtain ⟨hwhole, hvalue⟩ := strtol_of_unsigned hhead hminus hnumber (hsmall hnumber)
    rw [if_pos hwhole, hvalue, if_pos hdigits, hunsigned]
    rfl
  rw [if_neg hdigits]
  by_cases hplus : s.head? = some (ch '+') ∧ isDigitString (s.drop 1) = true
  · have hunsigned : unsigned s = s.drop 1 := by simp [unsigned, hplus.1]
    have hminus : s.head? ≠ some (ch '-') := by
      rw [hplus.1]
      decide
    have hnumber : isDigitString (unsigned s) = true := by
      rw [hunsigned]
      exact hplus.2
    obtain ⟨hwhole, hvalue⟩ := strtol_of_unsigned hhead hminus hnumber (hsmall hnumber)
    rw [if_pos hwhole, hvalue, if_pos hplus, hunsigned]
    rfl
  rw [if_neg hplus]
  cases hnumber : isDigitString (unsigned s) with
  | false => rw [if_neg fun hc => strtol_of_not_digits hhead hnil hnumber hc.1]; rfl
  | true =>
    -- A negative number: zero at best, and no name.
    have hminus : s.head? = some (ch '-') := by
      by_contra hminus
      by_cases hp : s.head? = some (ch '+')
      · exact hplus ⟨hp, by simpa [unsigned, hp] using hnumber⟩
      · exact hdigits (by simpa [unsigned, hminus, hp] using hnumber)
    have hlookup : levelWords.lookup (s.map CodePoint.toUpper) = none :=
      lookup_signed (Or.inl (head?_toupperAll hminus))
    have hread := strtol_of_digits hhead hnumber
    rw [if_pos hminus] at hread
    rw [hread, C.toupperAll, hlookup]
    simp only [true_and, Option.getD_none]
    split
    · rename_i hge
      have hzero : decimalValue (unsigned s) = 0 := by
        unfold clampLong at hge
        omega
      rw [hzero]
      rfl
    · rfl

/-- So does the Python runtime. -/
theorem SharedValue.parseLevelValue_eq (u : Python.Unicode) :
    Python.parseLevelValue u (Python.strip v) = (levelWord v).inPython := by
  have hascii := h.ascii
  have hlen : (trim v).length ≤ 4300 := h.plainValue.fits.trans (by omega)
  have hstrip : Python.strip (Python.strip v) = trim v :=
    (trimWith_trimWith (p := Python.isSpace)).trans h.strip_eq
  rw [Python.parseLevelValue, hstrip, levelWord]
  generalize trim v = s at hascii hlen
  have hisDigits : u.isDigits s = isDigitString s := u.isDigits_of_ascii hascii
  simp only [hisDigits, u.upper_of_ascii hascii, inPython_of_names]
  by_cases hnil : s = []
  · subst hnil
    rfl
  rw [if_neg hnil]
  by_cases hdigits : isDigitString s = true
  · rw [if_pos hdigits, if_pos hdigits, u.toInt_of_digits hlen (isDigitString_iff.mp hdigits).2]
    rfl
  rw [if_neg hdigits, if_neg hdigits]
  split
  · rename_i hplus
    rw [lookup_signed (Or.inr (head?_toupperAll hplus.1))]
    rfl
  · rfl

/-- Python knows four of the five words that disable logging in C. -/
theorem SharedValue.enabled_iff (u : Python.Unicode) :
    (!([text "0", text "false", text "off", text "no"].contains (u.lower (Python.strip v)))) =
      C.parseEnabled v ↔ (trim v).map CodePoint.toUpper ≠ text "DISABLED" := by
  have hwords : ∀ s : Text, s.map CodePoint.toLower ∈
      [text "0", text "false", text "off", text "no"] ↔
        s.map CodePoint.toUpper ∈ [text "0", text "FALSE", text "OFF", text "NO"] := by
    intro s
    have hlower : [text "0", text "false", text "off", text "no"] =
        [text "0", text "FALSE", text "OFF", text "NO"].map (List.map CodePoint.toLower) := by
      decide
    have hupper : [text "0", text "FALSE", text "OFF", text "NO"] =
        [text "0", text "FALSE", text "OFF", text "NO"].map (List.map CodePoint.toUpper) := by
      decide
    rw [hlower, hupper, List.mem_map, List.mem_map, ← hupper]
    simp only [map_toLower_eq_iff]
  have hpython : [text "0", text "false", text "off", text "no"].contains
      (u.lower (Python.strip v)) = true ↔ (trim v).map CodePoint.toUpper ∈
        [text "0", text "FALSE", text "OFF", text "NO"] := by
    rw [h.strip_eq, u.lower_ascii _ h.ascii, List.contains_iff_mem, hwords]
  have hc : C.parseEnabled v = false ↔ (trim v).map CodePoint.toUpper ∈
      [text "0", text "FALSE", text "NO", text "OFF", text "DISABLED"] := by
    rw [C.parseEnabled, h.trimCopy_eq_trim, C.any_streqCi]
    generalize trim v = s
    by_cases hnil : s = []
    · subst hnil
      decide
    · simp only [hnil, decide_false, Bool.false_or, Bool.not_eq_false', List.contains_iff_mem]
      rfl
  have hnot : ∀ a b : Bool, (!a) = b ↔ (a = true ↔ b = false) := by decide
  rw [hnot, hpython, hc]
  generalize (trim v).map CodePoint.toUpper = t
  by_cases ht : t = text "DISABLED"
  · subst ht
    decide
  · simp only [List.mem_cons, List.not_mem_nil, or_false, ht, ne_eq, not_false_eq_true, iff_true]
    exact or_congr_right (or_congr_right or_comm)

end Value

/-! ## Configurations -/

theorem sharedValue_nil : SharedValue [] := ⟨by simp, by decide, by decide⟩

/-- A variable that is not set reads as an empty text. -/
theorem sharedValue_getenv {env : Environ} {name : Text}
    (h : ∀ v ∈ env name, SharedValue v) :
    SharedValue (getenv env name) ∧ getenv env name = (env name).getD [] := by
  unfold getenv
  cases hv : env name with
  | none => exact ⟨sharedValue_nil, rfl⟩
  | some v =>
    have hshared := h v hv
    rw [Option.getD_some, hshared.plainValue.cStr_eq]
    exact ⟨hshared, rfl⟩

section Id

variable {id : Text} (h : SharedId id)
include h

theorem SharedId.loggerKey_eq : C.loggerKey id = C.toupperAll id := by
  have hcStr : cStr id = id := by
    apply cStr_of_no_nul
    rintro c hc rfl
    have := h.printable 0 hc
    simp at this
  have hfits := h.fits
  have hcopy : C.trimCopy 128 id = id := by
    rw [C.trimCopy, hcStr, h.trimmed]
    exact List.take_of_length_le (by omega)
  rw [C.loggerKey, hcStr, if_neg h.ne, C.upperCopy, hcopy]
  apply List.take_of_length_le
  rw [C.toupperAll, List.length_map]
  omega

theorem SharedId.buildModuleLoglevelEnv_eq :
    C.buildModuleLoglevelEnv (C.toupperAll id) = C.toupperAll id ++ text "_LOGLEVEL" := by
  have htwice : C.toupperAll (C.toupperAll id) = C.toupperAll id := by
    simp [C.toupperAll, Function.comp_def]
  have hlen : (C.toupperAll id).length ≤ 54 := by
    rw [C.toupperAll, List.length_map]
    exact h.fits
  rw [C.buildModuleLoglevelEnv_of_length hlen, htwice]

theorem SharedId.upper_eq (u : Python.Unicode) : u.upper id = C.toupperAll id := by
  apply u.upper_of_ascii
  intro c hc
  have := h.printable c hc
  omega

end Id

/-- An interpreter whose copy of the environment is fresh sees that environment. -/
theorem view_same (env : Environ) : Python.Process.view ⟨env, env⟩ = env := by
  funext key
  rw [Python.Process.view_apply]
  cases hkey : env key <;> simp [hkey]

/-- Python and C agree on an environment exactly when it does not spell out `disabled` and
the two level variables are spelled in a combination that agrees. -/
theorem shared_environment_iff (env : Environ) (id : Text) (hid : SharedId id)
    (hvalues : ∀ name ∈ [text "EWTS_ENABLED", text "EWTS_LOG_LEVEL",
      C.toupperAll id ++ text "_LOGLEVEL"], ∀ v ∈ env name, SharedValue v)
    (ewtsNgen : Bool) (u : Python.Unicode) (home : Text → Text) (overrides : Python.Overrides)
    (hov : overrides (u.upper id) = none) (cfg : Python.EwtsConfig)
    (hcfg : ((Python.loadConfig u home overrides id).run ⟨env, env⟩).1 = some cfg) :
    let st := C.initLoggerState env (.alloc (C.loggerKey id) ewtsNgen)
    (cfg.enabled = st.enabled ∧ cfg.defaultLevel = st.level ↔
      (trim (getenv env (text "EWTS_ENABLED"))).map CodePoint.toUpper ≠ text "DISABLED" ∧
      (levelWord (getenv env (C.toupperAll id ++ text "_LOGLEVEL"))).Agree
        (levelWord (getenv env (text "EWTS_LOG_LEVEL")))) := by
  intro st
  obtain ⟨hon, honEq⟩ := sharedValue_getenv (hvalues (text "EWTS_ENABLED") (by simp))
  obtain ⟨hfallback, hfallbackEq⟩ := sharedValue_getenv (hvalues (text "EWTS_LOG_LEVEL") (by simp))
  obtain ⟨hown, hownEq⟩ :=
    sharedValue_getenv (hvalues (C.toupperAll id ++ text "_LOGLEVEL") (by simp))
  rw [(Python.readsView_loadConfig u home overrides id).value, view_same] at hcfg
  obtain ⟨logDir, _, hcfg⟩ := Option.map_eq_some_iff.mp hcfg
  simp only [Python.Unicode.upper_upper_text, hov, Option.map_none, Option.getD_none] at hcfg
  have henabled : cfg.enabled = st.enabled ↔
      (trim (getenv env (text "EWTS_ENABLED"))).map CodePoint.toUpper ≠ text "DISABLED" := by
    rw [← hon.enabled_iff u, ← hcfg]
    change Python.enabledIn u env = C.parseEnabled _ ↔ _
    rw [Python.enabledIn]
    cases hv : env (text "EWTS_ENABLED") with
    | some v => rw [honEq, hv]; rfl
    | none =>
      rw [honEq, hv, Option.map_none, Option.getD_none, u.lower_ascii _ (by decide)]
      decide
  have hlevel : cfg.defaultLevel = st.level ↔
      (levelWord (getenv env (C.toupperAll id ++ text "_LOGLEVEL"))).Agree
        (levelWord (getenv env (text "EWTS_LOG_LEVEL"))) := by
    have hst : st.level = C.initialLevel env (C.toupperAll id) := by
      change C.initialLevel env ((C.loggerKey id).take 63) = _
      rw [C.take_loggerKey, hid.loggerKey_eq]
    have hpython : cfg.defaultLevel =
        ((levelWord (getenv env (C.toupperAll id ++ text "_LOGLEVEL"))).inPython.or
          (levelWord (getenv env (text "EWTS_LOG_LEVEL"))).inPython).getD 20 := by
      rw [← hcfg]
      change Python.levelIn u (u.upper id) env = _
      rw [Python.levelIn, u.upper_upper_text, hid.upper_eq, Python.stripped, Python.stripped,
        ← hownEq, ← hfallbackEq, hown.parseLevelValue_eq, hfallback.parseLevelValue_eq]
      rfl
    rw [LevelWord.agree_iff, hst, hpython]
    simp only [C.initialLevel, hid.buildModuleLoglevelEnv_eq, hown.parseLevel_eq_inC,
      hfallback.parseLevel_eq_inC]
  rw [henabled, hlevel]

theorem shared_environment_perform :
    let cfg : Python.EwtsConfig := ⟨true, false, none, 15, -1, none⟩
    let st := C.initLoggerState (petEnv (text "perform")) (.alloc (C.loggerKey (text "PET")) false)
    ((Python.loadConfig .ascii id (fun _ => none) (text "PET")).run
      ⟨petEnv (text "perform"), petEnv (text "perform")⟩).1 = some cfg ∧
    cfg.enabled = st.enabled ∧ cfg.defaultLevel = st.level := by
  have hvalues : ∀ name ∈ [text "EWTS_ENABLED", text "EWTS_LOG_LEVEL",
      C.toupperAll (text "PET") ++ text "_LOGLEVEL"], ∀ v ∈ petEnv (text "perform") name,
        SharedValue v := by
    intro name _ v hv
    rw [eq_of_mem_petEnv hv]
    exact ⟨by decide, by decide, by decide⟩
  refine ⟨rfl, (shared_environment_iff (petEnv (text "perform")) (text "PET")
    ⟨by decide, by decide, by decide, by decide⟩ hvalues false .ascii id (fun _ => none) rfl _
    rfl).mpr ⟨by decide, ?_⟩⟩
  decide

/-- `WARN` is 30 for C and unknown to Python. -/
theorem warn_is_native :
    ((Python.loadConfig .ascii id (fun _ => none) (text "PET")).run
      ⟨petEnv (text "WARN"), petEnv (text "WARN")⟩).1 = some ⟨true, false, none, 20, -1, none⟩ ∧
    (C.initLoggerState (petEnv (text "WARN"))
      (.alloc (C.loggerKey (text "PET")) false)).level = 30 :=
  ⟨rfl, rfl⟩

end Ewts
