import Ewts.Core.Trim
import Ewts.Runtime.Cpp.Logger

/-!
# The environment of the C and C++ runtimes

The C runtime reads a variable through fixed buffers and the white space of the locale, the
C++ runtime through strings and its own blank characters. On values that fit the buffers
both find the same flag and the same level.
-/

namespace Ewts

/-! ## Character classes -/

/-- Printable ASCII, tab, carriage return and newline. -/
def isPlain (c : CodePoint) : Bool :=
  (0x20 ≤ c.val && c.val ≤ 0x7E) || c = ch '\t' || c = ch '\r' || c = ch '\n'

/-- Upper-case letters, digits and underscores. -/
def isIdChar (c : CodePoint) : Bool :=
  (0x41 ≤ c.val && c.val ≤ 0x5A) || c.isDigit || c = ch '_'

theorem isPlain_iff {c : CodePoint} : isPlain c = true ↔
    0x20 ≤ c.val ∧ c.val ≤ 0x7E ∨ c.val = 0x09 ∨ c.val = 0x0D ∨ c.val = 0x0A := by
  simp only [isPlain, Bool.or_eq_true, Bool.and_eq_true, decide_eq_true_eq, Fin.ext_iff, or_assoc]
  rfl

theorem isIdChar_iff {c : CodePoint} : isIdChar c = true ↔
    0x41 ≤ c.val ∧ c.val ≤ 0x5A ∨ 0x30 ≤ c.val ∧ c.val ≤ 0x39 ∨ c.val = 0x5F := by
  simp only [isIdChar, CodePoint.isDigit, Bool.or_eq_true, Bool.and_eq_true, decide_eq_true_eq,
    Fin.ext_iff, or_assoc]
  rfl

theorem isSpaceC_iff {c : CodePoint} :
    c.isSpaceC = true ↔ c.val = 0x20 ∨ 0x09 ≤ c.val ∧ c.val ≤ 0x0D := by
  simp only [CodePoint.isSpaceC, Bool.or_eq_true, Bool.and_eq_true, decide_eq_true_eq]

theorem Cpp.isBlank_iff {c : CodePoint} : Cpp.isBlank c = true ↔
    c.val = 0x20 ∨ c.val = 0x09 ∨ c.val = 0x0D ∨ c.val = 0x0A := by
  simp only [Cpp.isBlank, Bool.or_eq_true, decide_eq_true_eq, Fin.ext_iff, or_assoc]
  rfl

theorem ne_zero_of_isPlain {c : CodePoint} (h : isPlain c = true) : c ≠ 0 := by
  rintro rfl
  revert h
  decide

/-- The locale knows two more blanks, the vertical tab and the form feed. -/
theorem isSpaceC_eq_isBlank {c : CodePoint} (h : isPlain c = true) :
    c.isSpaceC = Cpp.isBlank c := by
  rw [isPlain_iff] at h
  rw [Bool.eq_iff_iff, isSpaceC_iff, Cpp.isBlank_iff]
  omega

theorem isPlain_of_isIdChar {c : CodePoint} (h : isIdChar c = true) : isPlain c = true := by
  rw [isIdChar_iff] at h
  rw [isPlain_iff]
  omega

theorem isBlank_of_isIdChar {c : CodePoint} (h : isIdChar c = true) : Cpp.isBlank c = false := by
  rw [isIdChar_iff] at h
  rw [Bool.eq_false_iff, ne_eq, Cpp.isBlank_iff]
  omega

theorem toUpper_of_isIdChar {c : CodePoint} (h : isIdChar c = true) : c.toUpper = c := by
  rw [isIdChar_iff] at h
  apply Fin.ext
  rw [CodePoint.toUpper_val, if_neg (by omega)]

/-! ## Values -/

/-- A value that the buffers of the C runtime hold whole. -/
structure PlainValue (v : Text) : Prop where
  plain : ∀ c ∈ v, isPlain c = true
  fits : (trim v).length ≤ 31

theorem plainValue_nil : PlainValue [] := ⟨by simp, by decide⟩

/-- A C string keeps a plain value. -/
theorem PlainValue.cStr_eq {v : Text} (h : PlainValue v) : cStr v = v :=
  cStr_of_no_nul fun c hc => ne_zero_of_isPlain (h.plain c hc)

/-- Both runtimes trim such a value to the same text. -/
theorem PlainValue.trimCopy_eq {v : Text} (h : PlainValue v) :
    C.trimCopy 32 v = Cpp.trimBlank v := by
  calc C.trimCopy 32 v = (trim v).take 31 := by rw [C.trimCopy, h.cStr_eq]
    _ = trim v := List.take_of_length_le h.fits
    _ = Cpp.trimBlank v := trimWith_congr fun c hc => isSpaceC_eq_isBlank (h.plain c hc)

/-- Comparing without case is comparing in upper case. -/
theorem C.streqCi_eq_beq (a b : Text) : C.streqCi a b = (C.toupperAll a == C.toupperAll b) := by
  rw [C.streqCi, beq_eq_decide]

theorem C.any_streqCi (s : Text) : [text "0", text "false", text "no", text "off",
    text "disabled"].any (C.streqCi s) = [text "0", text "FALSE", text "NO", text "OFF",
      text "DISABLED"].contains (C.toupperAll s) := by
  have hupper : [text "0", text "FALSE", text "NO", text "OFF", text "DISABLED"] =
      [text "0", text "false", text "no", text "off", text "disabled"].map C.toupperAll := by
    decide
  have hcompare : C.streqCi s = (C.toupperAll s == ·) ∘ C.toupperAll :=
    funext (C.streqCi_eq_beq s)
  rw [hupper, List.contains_eq_any_beq, List.any_map, hcompare]

theorem PlainValue.parseEnabled_eq {v : Text} (h : PlainValue v) :
    C.parseEnabled v = Cpp.parseEnabled v := by
  have hnil : Cpp.trimBlank v = [] ↔ Cpp.trimUpper v = [] := by
    rw [Cpp.trimUpper, C.toupperAll, List.map_eq_nil_iff]
  rw [C.parseEnabled, Cpp.parseEnabled, h.trimCopy_eq, C.any_streqCi, ← Cpp.trimUpper]
  simp only [hnil]

/-- The first name that is equal up to case is the one that equals the text in upper case. -/
theorem C.find_streqCi (s : Text) (names : List (Text × Int)) :
    (names.find? fun e => C.streqCi s e.1).map Prod.snd =
      (names.map fun e => (C.toupperAll e.1, e.2)).lookup (C.toupperAll s) := by
  induction names with
  | nil => rfl
  | cons e names ih =>
    rw [List.find?_cons, List.map_cons, List.lookup_cons, ← C.streqCi_eq_beq]
    cases C.streqCi s e.1 with
    | true => rfl
    | false => exact ih

/-- The names that only the C runtime knows stand for no level. -/
theorem levelNames_getD (s : Text) :
    ((C.levelNames.find? fun e => C.streqCi s e.1).map Prod.snd).getD 0 =
      (Cpp.levelNames.lookup (C.toupperAll s)).getD 0 := by
  have hnames : (C.levelNames.map fun e => (C.toupperAll e.1, e.2)) =
      Cpp.levelNames ++ [(text "NOTSET", 0), (text "NONE", 0)] := by decide
  rw [C.find_streqCi, hnames, List.lookup_append]
  cases Cpp.levelNames.lookup (C.toupperAll s) with
  | some n => rfl
  | none =>
    rw [Option.none_or, List.lookup_cons, List.lookup_cons, List.lookup_nil]
    cases C.toupperAll s == text "NOTSET" <;> cases C.toupperAll s == text "NONE" <;> rfl

theorem PlainValue.parseLevel_eq {v : Text} (h : PlainValue v) :
    C.parseLevel v = Cpp.parseLevel v := by
  have htwice : Cpp.trimUpper (Cpp.trimBlank v) = C.toupperAll (Cpp.trimBlank v) :=
    congrArg C.toupperAll trimWith_trimWith
  simp only [C.parseLevel, Cpp.parseLevel, h.trimCopy_eq, htwice, levelNames_getD]

/-! ## Ids -/

/-- The id of a module; without one it is `EWTS`. -/
def moduleId (id : Text) : Text := if id = [] then text "EWTS" else id

theorem isIdChar_of_mem_moduleId {id : Text} (h : ∀ c ∈ id, isIdChar c = true) :
    ∀ c ∈ moduleId id, isIdChar c = true := by
  unfold moduleId
  split
  · decide
  · exact h

theorem length_moduleId_le {id : Text} (h : id.length ≤ 54) : (moduleId id).length ≤ 54 := by
  unfold moduleId
  split
  · decide
  · exact h

section Id

variable {id : Text} (hid : ∀ c ∈ id, isIdChar c = true)
include hid

theorem toupperAll_of_isIdChar : C.toupperAll id = id := by
  unfold C.toupperAll
  rw [List.map_congr_left fun c hc => toUpper_of_isIdChar (hid c hc), List.map_id']

theorem trimBlank_of_isIdChar : Cpp.trimBlank id = id :=
  trimWith_of_forall_not fun c hc => isBlank_of_isIdChar (hid c hc)

/-- The C++ runtime keeps an id of this alphabet. -/
theorem Cpp.loggerKey_of_isIdChar : Cpp.loggerKey id = moduleId id := by
  have hmodule := isIdChar_of_mem_moduleId hid
  rw [Cpp.loggerKey, ← moduleId, Cpp.trimUpper, trimBlank_of_isIdChar hmodule,
    toupperAll_of_isIdChar hmodule]

/-- So does the C runtime while the id fits its buffers. -/
theorem C.loggerKey_of_isIdChar (hlen : id.length ≤ 54) : C.loggerKey id = moduleId id := by
  have hmodule := isIdChar_of_mem_moduleId hid
  have hc : ∀ i : Text, (∀ c ∈ i, isIdChar c = true) → cStr i = i := fun i hi =>
    cStr_of_no_nul fun c hc => ne_zero_of_isPlain (isPlain_of_isIdChar (hi c hc))
  have htrim : trim (moduleId id) = Cpp.trimBlank (moduleId id) :=
    trimWith_congr fun c hc => isSpaceC_eq_isBlank (isPlain_of_isIdChar (hmodule c hc))
  have hle := length_moduleId_le hlen
  have hcopy : C.trimCopy 128 (moduleId id) = moduleId id := by
    rw [C.trimCopy, hc _ hmodule, htrim, trimBlank_of_isIdChar hmodule]
    exact List.take_of_length_le (by omega)
  rw [C.loggerKey, hc id hid, ← moduleId, C.upperCopy, hcopy, toupperAll_of_isIdChar hmodule]
  exact List.take_of_length_le (by omega)

end Id

/-! ## Initialisation -/

/-- The variables that an id is configured by. -/
def configVariables (id : Text) : List Text :=
  [text "EWTS_ENABLED", text "EWTS_LOG_LEVEL", moduleId id ++ text "_LOGLEVEL"]

/-- A variable that is not set reads as an empty text. -/
theorem plainValue_getenv {env : Environ} {name : Text}
    (h : ∀ v ∈ env name, PlainValue v) : PlainValue (getenv env name) := by
  unfold getenv
  cases hv : env name with
  | none => exact plainValue_nil
  | some v =>
    rw [Option.getD_some, (h v hv).cStr_eq]
    exact h v hv

/-- A first use of an id finds the same level variable, the same flag and the same threshold
in the C and in the C++ runtime. -/
theorem native_environment_agrees (env : Environ) (id : Text)
    (hid : ∀ c ∈ id, isIdChar c = true) (hlen : id.length ≤ 54)
    (hvalues : ∀ name ∈ configVariables id, ∀ v ∈ env name, PlainValue v)
    (ewtsNgen ewtsNgen' : Bool) :
    let st := C.initLoggerState env (.alloc (C.loggerKey id) ewtsNgen)
    let lg := (Cpp.Logger.new (Cpp.loggerKey id) ewtsNgen').initOnce env
    C.buildModuleLoglevelEnv st.ewtsId = moduleId id ++ text "_LOGLEVEL" ∧
    cStr (Cpp.moduleLoglevelEnv lg.ewtsId) = moduleId id ++ text "_LOGLEVEL" ∧
    st.enabled = lg.enabled ∧ st.level = lg.level := by
  intro st lg
  have hmodule := isIdChar_of_mem_moduleId hid
  have hread : ∀ name ∈ configVariables id, PlainValue (getenv env name) :=
    fun name hname => plainValue_getenv (hvalues name hname)
  have hst : st.ewtsId = moduleId id := by
    change (C.loggerKey id).take 63 = _
    rw [C.take_loggerKey, C.loggerKey_of_isIdChar hid hlen]
  have hlg : lg.ewtsId = moduleId id := by
    change Cpp.trimUpper (Cpp.loggerKey id) = _
    rw [Cpp.loggerKey_of_isIdChar hid, Cpp.trimUpper, trimBlank_of_isIdChar hmodule,
      toupperAll_of_isIdChar hmodule]
  have hvarC : C.buildModuleLoglevelEnv (moduleId id) = moduleId id ++ text "_LOGLEVEL" := by
    rw [C.buildModuleLoglevelEnv_of_length (length_moduleId_le hlen),
      toupperAll_of_isIdChar hmodule]
  have hvarCpp : cStr (Cpp.moduleLoglevelEnv (moduleId id)) = moduleId id ++ text "_LOGLEVEL" := by
    apply cStr_of_no_nul
    intro c hc
    rcases List.mem_append.mp hc with hc | hc
    · exact ne_zero_of_isPlain (isPlain_of_isIdChar (hmodule c hc))
    · exact ne_zero_of_isPlain ((by decide : ∀ c ∈ text "_LOGLEVEL", isPlain c = true) c hc)
  refine ⟨by rw [hst, hvarC], by rw [hlg, hvarCpp], ?_, ?_⟩
  · change C.parseEnabled _ = Cpp.parseEnabled _
    exact (hread _ (by simp [configVariables])).parseEnabled_eq
  · have hown := (hread (moduleId id ++ text "_LOGLEVEL") (by simp [configVariables])).parseLevel_eq
    have hfallback := (hread (text "EWTS_LOG_LEVEL") (by simp [configVariables])).parseLevel_eq
    change C.initialLevel env st.ewtsId = Cpp.initialLevel env lg.ewtsId
    simp only [hst, hlg, C.initialLevel, Cpp.initialLevel, hvarC, hvarCpp, hown, hfallback]

/-- Only the level of `PET` is set. -/
def petEnv (value : Text) : Environ :=
  Environ.setenv (fun _ => none) (text "PET_LOGLEVEL") value

theorem eq_of_mem_petEnv {value name v : Text} (h : v ∈ petEnv value name) : v = value := by
  rw [petEnv, Environ.setenv, Function.update_apply] at h
  split at h
  · exact (Option.some.inj h).symm
  · cases h

theorem native_environment_agrees_pet :
    let st := C.initLoggerState (petEnv (text "\t+15 \n")) (.alloc (C.loggerKey (text "PET")) true)
    let lg := (Cpp.Logger.new (Cpp.loggerKey (text "PET")) true).initOnce (petEnv (text "\t+15 \n"))
    C.buildModuleLoglevelEnv st.ewtsId = text "PET_LOGLEVEL" ∧
    cStr (Cpp.moduleLoglevelEnv lg.ewtsId) = text "PET_LOGLEVEL" ∧
    st.enabled = lg.enabled ∧ st.level = lg.level := by
  apply native_environment_agrees (petEnv (text "\t+15 \n")) (text "PET") (by decide) (by decide)
  intro name _ v hv
  rw [eq_of_mem_petEnv hv]
  exact ⟨by decide, by decide⟩

end Ewts
