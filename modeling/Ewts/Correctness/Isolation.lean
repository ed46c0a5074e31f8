import Ewts.Core.Trim
import Ewts.Correctness.Ownership

/-!
# One id at a time

The override map, the cache and the standard loggers have keys of three kinds, yet every
function of the package works under one resolved id. The override of an id is the last
setup of its history, and what belongs to other ids stays as it is.
-/

namespace Ewts.Python

/-- Upper case makes a word of a word: no character vanishes, or becomes white space. -/
structure Unicode.KeepsWords (u : Unicode) : Prop where
  ne_nil : ∀ c, u.upperChar c ≠ []
  not_space : ∀ c, isSpace c = false → ∀ d ∈ u.upperChar c, isSpace d = false

theorem Unicode.keepsWords_ascii : Unicode.ascii.KeepsWords := by
  constructor
  · intro c h
    cases h
  · intro c hc d hd
    rw [List.mem_singleton.mp hd, isSpace_toUpper, hc]

/-! ## Resolved ids -/

/-- A text without white space at its ends is stripped. -/
theorem strip_of_ends {s : Text} (hhead : ∀ c ∈ s.head?, isSpace c = false)
    (hlast : ∀ c ∈ s.getLast?, isSpace c = false) : strip s = s := by
  rw [strip, dropWhile_of_head? hhead, List.rdropWhile_eq_self_iff]
  intro hne
  rw [hlast _ (List.getLast?_eq_some_getLast hne)]
  exact Bool.false_ne_true

theorem getLast?_strip (s : Text) : ∀ c ∈ (strip s).getLast?, isSpace c = false := by
  intro c hc
  have hne : strip s ≠ [] := by
    intro hnil
    rw [hnil] at hc
    cases hc
  have hlast : (strip s).getLast hne = c := by
    rw [List.getLast?_eq_some_getLast hne] at hc
    exact Option.some.inj hc
  have hnot := List.rdropWhile_last_not isSpace (s.dropWhile isSpace) hne
  rw [← hlast]
  exact Bool.eq_false_iff.mpr hnot

variable {u : Unicode}

/-- Upper case leaves no white space at the ends of a stripped text. -/
theorem strip_upper_strip (hw : u.KeepsWords) (s : Text) :
    strip (u.upper (strip s)) = u.upper (strip s) := by
  apply strip_of_ends
  · cases hs : strip s with
    | nil => simp [Unicode.upper]
    | cons c t =>
      have hc : isSpace c = false := head?_trimWith (p := isSpace) (l := s) c (by
        rw [show trimWith isSpace s = c :: t from hs]
        rfl)
      intro d hd
      apply hw.not_space c hc
      rw [Unicode.upper, List.flatMap_cons, List.head?_append_of_ne_nil _ (hw.ne_nil c)] at hd
      exact List.mem_of_head? hd
  · rcases List.eq_nil_or_concat (strip s) with hnil | ⟨t, c, hs⟩
    · rw [hnil]
      simp [Unicode.upper]
    · rw [List.concat_eq_append] at hs
      have hc : isSpace c = false := getLast?_strip s c (by rw [hs]; simp)
      intro d hd
      apply hw.not_space c hc
      rw [hs, Unicode.upper, List.flatMap_append, List.flatMap_singleton,
        List.getLast?_append_of_ne_nil _ (hw.ne_nil c)] at hd
      exact List.mem_of_getLast? hd

theorem upper_ne_nil (hw : u.KeepsWords) {s : Text} (h : s ≠ []) : u.upper s ≠ [] := by
  obtain ⟨c, s, rfl⟩ := List.exists_cons_of_ne_nil h
  intro hnil
  exact hw.ne_nil c (List.append_eq_nil_iff.mp hnil).1

/-- No module key is in upper case. -/
theorem lookup_of_upper {s : Text} (h : u.upper s = s) : keyToEwtsId.lookup s = none := by
  rw [List.lookup_eq_none_iff]
  intro e he
  rw [bne_iff_ne]
  rintro rfl
  have hkeys : ∀ e ∈ keyToEwtsId, (∀ c ∈ e.1, c.val < 0x80) ∧ e.1.map CodePoint.toUpper ≠ e.1 := by
    decide
  obtain ⟨hascii, hne⟩ := hkeys e he
  rw [u.upper_of_ascii hascii] at h
  exact hne h

/-- A stripped text in upper case is resolved. -/
theorem resolveEwtsId_of_upper {s : Text} (hne : s ≠ []) (hstrip : strip s = s)
    (h : u.upper s = s) : resolveEwtsId u s = s := by
  rw [resolveEwtsId, hstrip, if_neg hne, lookup_of_upper h, Option.getD_none, h]

/-- A resolved id is a word. -/
theorem resolveEwtsId_stripped (hw : u.KeepsWords) (s : Text) :
    resolveEwtsId u s ≠ [] ∧ strip (resolveEwtsId u s) = resolveEwtsId u s := by
  unfold resolveEwtsId
  split
  · decide
  · rename_i hne
    cases hkey : keyToEwtsId.lookup (strip s) with
    | none =>
      rw [Option.getD_none]
      exact ⟨upper_ne_nil hw hne, strip_upper_strip hw s⟩
    | some id =>
      rw [Option.getD_some]
      have hids : ∀ e ∈ keyToEwtsId, e.2 ≠ [] ∧ strip e.2 = e.2 := by decide
      obtain ⟨l₁, l₂, hl, _⟩ := List.lookup_eq_some_iff.mp hkey
      exact hids (strip s, id) (by rw [hl]; simp)

/-- Resolving is idempotent. -/
theorem resolveEwtsId_resolveEwtsId (hw : u.KeepsWords) (s : Text) :
    resolveEwtsId u (resolveEwtsId u s) = resolveEwtsId u s := by
  obtain ⟨hne, hstrip⟩ := resolveEwtsId_stripped hw s
  exact resolveEwtsId_of_upper hne hstrip (Registry.resolveEwtsId_upper u s)

namespace Registry

/-! ## Histories -/

/-- A call of a function that works under an id. -/
inductive IdCall where
  | setupLogger (s : Text) (args : SetupArgs)
  | getLogger (s : Text)
  | resetLogger (s : Text)
  /-- `clear_runtime_override` on the id that the text resolves to. -/
  | clearRuntimeOverride (s : Text)

/-- The resolved id of a call. -/
def IdCall.ewtsId (u : Unicode) : IdCall → Text
  | setupLogger s _ | getLogger s | resetLogger s | clearRuntimeOverride s => resolveEwtsId u s

/-- The state after a call; it is `none` when the call raises. -/
def perform (u : Unicode) (r : Registry) (c : Host × IdCall) : Option Registry :=
  match c.2 with
  | .setupLogger s args =>
    (r.setupLogger u c.1 s args).1.map fun _ => (r.setupLogger u c.1 s args).2
  | .getLogger s => (r.getLogger u c.1 s).1.map fun _ => (r.getLogger u c.1 s).2
  | .resetLogger s => some (r.resetLogger u s)
  | .clearRuntimeOverride s =>
    some { r with overrides := Python.clearRuntimeOverride u r.overrides (resolveEwtsId u s) }

/-- The state after a history in which no call raises. -/
def performAll (u : Unicode) (calls : List (Host × IdCall)) : Option Registry :=
  calls.foldlM (perform u) initial

/-- The last setup of an id after a call: a setup replaces it, and a clear forgets it. -/
def remember (u : Unicode) (id : Text) (last : Option (Host × SetupArgs)) (c : Host × IdCall) :
    Option (Host × SetupArgs) :=
  if c.2.ewtsId u = id then
    match c.2 with
    | .setupLogger _ args => some (c.1, args)
    | .clearRuntimeOverride _ => none
    | .getLogger _ | .resetLogger _ => last
  else last

/-- The last setup of an id in a history, unless its override was cleared since. -/
def lastSetup (u : Unicode) (id : Text) (calls : List (Host × IdCall)) :
    Option (Host × SetupArgs) :=
  calls.foldl (remember u id) none

theorem lastSetup_concat (u : Unicode) (id : Text) (calls : List (Host × IdCall))
    (c : Host × IdCall) :
    lastSetup u id (calls ++ [c]) = remember u id (lastSetup u id calls) c := by
  rw [lastSetup, List.foldl_concat]
  rfl

/-- What a call of the id itself is remembered as. -/
theorem remember_own (u : Unicode) (last : Option (Host × SetupArgs)) (c : Host × IdCall) :
    remember u (c.2.ewtsId u) last c = match c.2 with
      | .setupLogger _ args => some (c.1, args)
      | .clearRuntimeOverride _ => none
      | .getLogger _ | .resetLogger _ => last :=
  if_pos rfl

/-- A configuration takes each field from the last setup when that gives it, and from the
environment otherwise. -/
structure Configured (u : Unicode) (host : Host) (id : Text) (last : Option (Host × SetupArgs))
    (cfg : EwtsConfig) : Prop where
  enabled : cfg.enabled = (last.bind (·.2.enabled)).getD (enabledIn u host.process.view)
  level : cfg.defaultLevel =
    ((last.bind (·.2.level)).map (parseLogLevel u)).getD (levelIn u id host.process.view)
  logDir : match last.bind fun l => l.2.logDir.map fun dir => (l.1.home, dir) with
    | some (home, dir) =>
      ∃ path, (Path.parse dir).expanduser home = some path ∧ cfg.logDir = some path.str
    | none => logDirIn host.home host.process.view = some cfg.logDir
  logFileName : cfg.logFileName = last.bind (·.2.logFileName)
  runningInNgen : cfg.runningInNgen = (last.bind (·.2.runningInNgen)).getD
    (stripped host.process.view (text "EWTS_USE_NGEN_BRIDGE") ≠ [])

/-- An object is what `_init` makes of a configuration that it has loaded. -/
def StartedFrom (u : Unicode) (host : Host) (overrides : Overrides) (id : Text) (cfg : EwtsConfig)
    (o : EwtsObject) : Prop :=
  ∃ due process, (loadConfig u host.home overrides id).run host.process = (some cfg, process) ∧
    ((EwtsObject.start u host due id cfg).run process).1 = some o

/-- The state that belongs to an id. -/
structure SameFor (r r' : Registry) (id : Text) : Prop where
  cache : r'.cache id = r.cache id
  object : ∀ ref, r.cache id = some ref → r'.objects[ref]? = r.objects[ref]?
  overrides : r'.overrides id = r.overrides id
  wrapped : r'.pyLoggers (pyName id) = r.pyLoggers (pyName id)
  application : r'.pyLoggers id = r.pyLoggers id

/-! ## Frames -/

section Frames

variable {r r' r'' : Registry} {id : Text}

theorem SameFor.trans (h : r.SameFor r' id) (h' : r'.SameFor r'' id) : r.SameFor r'' id where
  cache := h'.cache.trans h.cache
  object ref href := (h'.object ref (h.cache.trans href)).trans (h.object ref href)
  overrides := h'.overrides.trans h.overrides
  wrapped := h'.wrapped.trans h.wrapped
  application := h'.application.trans h.application

theorem sameFor_resetLogger {s : Text} (hid : u.upper id = id) (hne : resolveEwtsId u s ≠ id) :
    r.SameFor (r.resetLogger u s) id := by
  have hfix := resolveEwtsId_upper u s
  constructor
  · exact Function.update_of_ne hne.symm ..
  · exact fun _ _ => rfl
  · rfl
  · calc (r.resetLogger u s).pyLoggers (pyName id) =
          (r.setPyLogger (pyName (resolveEwtsId u s)) .fresh).pyLoggers (pyName id) :=
        Function.update_of_ne (ne_pyName hfix id).symm ..
      _ = r.pyLoggers (pyName id) :=
        Function.update_of_ne (fun h => hne (pyName_inj.mp h).symm) ..
  · calc (r.resetLogger u s).pyLoggers id =
          (r.setPyLogger (pyName (resolveEwtsId u s)) .fresh).pyLoggers id :=
        Function.update_of_ne hne.symm ..
      _ = r.pyLoggers id := Function.update_of_ne (ne_pyName hid _) ..

/-- What `get_logger` does when it constructs, and that it does nothing else. -/
theorem getLogger_cases {host : Host} {s : Text} {ref : Nat}
    (h : (r.getLogger u host s).1 = some ref) :
    (r.getLogger u host s).2 = r ∨
      ∃ o, r.construct u host (resolveEwtsId u s) = some o ∧ (r.getLogger u host s).2 =
        { r.wire o with
          cache := Function.update r.cache (resolveEwtsId u s) (some r.objects.length) } := by
  revert h
  unfold getLogger
  simp only
  cases r.cache (resolveEwtsId u s) with
  | some ref => exact fun _ => Or.inl rfl
  | none =>
    cases r.construct u host (resolveEwtsId u s) with
    | none => exact fun _ => Or.inl rfl
    | some o => exact fun _ => Or.inr ⟨o, rfl, rfl⟩

theorem sameFor_getLogger {host : Host} {s : Text} {ref : Nat} (hv : r.Valid u)
    (h : (r.getLogger u host s).1 = some ref) (hid : u.upper id = id)
    (hne : resolveEwtsId u s ≠ id) : r.SameFor (r.getLogger u host s).2 id := by
  rcases getLogger_cases h with heq | ⟨o, hnew, heq⟩
  · rw [heq]
    exact ⟨rfl, fun _ _ => rfl, rfl, rfl, rfl⟩
  · have hown : o.ewtsId = resolveEwtsId u s :=
      (construct_logger hnew).1.trans (resolveEwtsId_upper u s)
    rw [heq]
    constructor
    · exact Function.update_of_ne hne.symm ..
    · intro ref href
      obtain ⟨_, o', ho', _⟩ := hv id ref href
      rw [ho']
      exact getElem?_wire_of_some o ho'
    · rfl
    · apply pyLoggers_wire_other
      rw [hown]
      exact fun h => hne (pyName_inj.mp h).symm
    · exact pyLoggers_wire_other o (ne_pyName hid _)

end Frames

/-! ## Construction -/

section Configuration

variable {r : Registry} {host : Host} {id : Text} {o : EwtsObject}

/-- A constructed object has loaded its configuration. -/
theorem construct_startedFrom (hid : u.upper id = id) (h : r.construct u host id = some o) :
    ∃ cfg, StartedFrom u host r.overrides id cfg o := by
  unfold construct EwtsObject.init at h
  simp only [hid] at h
  rw [Py.run_bind] at h
  cases hload : (loadConfig u host.home r.overrides id).run host.process with
  | mk cfg process =>
    rw [hload] at h
    cases cfg with
    | none => cases h
    | some cfg => exact ⟨cfg, _, process, hload, h⟩

/-- The override that a setup stores; it is `none` when the directory has no home. -/
def storedOverride (u : Unicode) (setup : Host × SetupArgs) : Option EwtsRuntimeOverride :=
  match setup.2.logDir with
  | none => some (setup.2.override u)
  | some dir => ((Path.parse dir).expanduser setup.1.home).map fun path =>
      { setup.2.override u with logDir := some path.str }

theorem setRuntimeOverride_eq (overrides : Overrides) (host : Host) (args : SetupArgs) :
    setRuntimeOverride u host.home overrides id (args.override u) =
      (storedOverride u (host, args)).map fun ov =>
        Function.update overrides (u.upper id) (some ov) := by
  unfold setRuntimeOverride storedOverride
  cases hdir : args.logDir with
  | none =>
    simp only [SetupArgs.override, hdir]
    rfl
  | some dir =>
    simp only [SetupArgs.override, hdir, Option.map_map]
    rfl

/-- The override of an id is what its last setup stores. -/
def Remembered (u : Unicode) (last : Option (Host × SetupArgs))
    (ov : Option EwtsRuntimeOverride) : Prop :=
  last.map (storedOverride u) = ov.map some

/-- Overrides win field by field. -/
theorem StartedFrom.configured {overrides : Overrides} {last : Option (Host × SetupArgs)}
    {cfg : EwtsConfig} (h : StartedFrom u host overrides id cfg o) (hid : u.upper id = id)
    (hlast : Remembered u last (overrides id)) : Configured u host id last cfg := by
  obtain ⟨_, process, hload, _⟩ := h
  have hcfg : configIn u host.home overrides id host.process.view = some cfg := by
    rw [← (readsView_loadConfig u host.home overrides id).value, hload]
  unfold configIn at hcfg
  simp only [hid] at hcfg
  obtain ⟨dir, hdir, hcfg⟩ := Option.map_eq_some_iff.mp hcfg
  unfold Remembered at hlast
  cases last with
  | none =>
    have hnone : overrides id = none := by
      cases hov : overrides id with
      | none => rfl
      | some ov =>
        rw [hov] at hlast
        cases hlast
    rw [hnone] at hcfg
    subst hcfg
    exact ⟨rfl, rfl, hdir, rfl, rfl⟩
  | some setup =>
    obtain ⟨ov, hov, hstored⟩ :
        ∃ ov, overrides id = some ov ∧ storedOverride u setup = some ov := by
      cases hov : overrides id with
      | none =>
        rw [hov] at hlast
        cases hlast
      | some ov =>
        rw [hov] at hlast
        exact ⟨ov, rfl, Option.some.inj hlast⟩
    rw [hov] at hcfg
    subst hcfg
    unfold storedOverride at hstored
    cases hsetup : setup.2.logDir with
    | none =>
      rw [hsetup] at hstored
      cases hstored
      refine ⟨rfl, rfl, ?_, ?_, rfl⟩
      · simpa [hsetup, EwtsConfig.replace, SetupArgs.override] using hdir
      · simp [EwtsConfig.replace, SetupArgs.override]
    | some given =>
      rw [hsetup] at hstored
      obtain ⟨path, hpath, rfl⟩ := Option.map_eq_some_iff.mp hstored
      refine ⟨rfl, rfl, ?_, ?_, rfl⟩
      · simp [hsetup, EwtsConfig.replace, hpath]
      · simp [EwtsConfig.replace, SetupArgs.override]

end Configuration

/-! ## Calls -/

section Calls

variable {r r' : Registry} {host : Host} {c : IdCall} {id : Text}

/-- A call adds no object, or the one that it starts for its id. -/
def Starts (u : Unicode) (host : Host) (id : Text) (r r' : Registry) : Prop :=
  r'.objects = r.objects ∨ ∃ o cfg, r'.objects = r.objects ++ [o] ∧
    StartedFrom u host r'.overrides id cfg o

theorem getLogger_starts {s : Text} {ref : Nat} (h : (r.getLogger u host s).1 = some ref) :
    Starts u host (resolveEwtsId u s) r (r.getLogger u host s).2 ∧
      (r.getLogger u host s).2.overrides = r.overrides := by
  rcases getLogger_cases h with heq | ⟨o, hnew, heq⟩
  · rw [heq]
    exact ⟨Or.inl rfl, rfl⟩
  · obtain ⟨cfg, hcfg⟩ := construct_startedFrom (resolveEwtsId_upper u s) hnew
    rw [heq]
    exact ⟨Or.inr ⟨o, cfg, rfl, hcfg⟩, rfl⟩

/-- A setup that does not raise resets its id, stores the override and gets the logger. -/
theorem setupLogger_cases (hw : u.KeepsWords) {s : Text} {args : SetupArgs} {ref : Nat}
    (h : (r.setupLogger u host s args).1 = some ref) :
    ∃ ov r'', storedOverride u (host, args) = some ov ∧
      r'' = { r.resetLogger u s with
        overrides := Function.update r.overrides (resolveEwtsId u s) (some ov) } ∧
      (r''.getLogger u host s).1 = some ref ∧
        (r.setupLogger u host s args).2 = (r''.getLogger u host s).2 := by
  have hidem := resolveEwtsId_resolveEwtsId hw s
  have hreset : r.resetLogger u (resolveEwtsId u s) = r.resetLogger u s := by
    unfold resetLogger
    rw [hidem]
  have hget (r'' : Registry) : r''.getLogger u host (resolveEwtsId u s) =
      r''.getLogger u host s := by
    unfold getLogger
    rw [hidem]
  revert h
  unfold setupLogger
  simp only [hreset, setRuntimeOverride_eq, resolveEwtsId_upper]
  cases storedOverride u (host, args) with
  | none => exact fun h => nomatch h
  | some ov =>
    simp only [Option.map_some, hget]
    exact fun h => ⟨ov, _, rfl, rfl, h, rfl⟩

/-- What one call does to the objects, to the other ids, and to the override of each id. -/
theorem perform_spec (hw : u.KeepsWords) (hv : r.Valid u)
    (h : r.perform u (host, c) = some r') :
    r'.Valid u ∧ Starts u host (c.ewtsId u) r r' ∧
      (∀ id, u.upper id = id → c.ewtsId u ≠ id → r.SameFor r' id) ∧
      ∀ last, Remembered u last (r.overrides (c.ewtsId u)) →
        Remembered u (remember u (c.ewtsId u) last (host, c)) (r'.overrides (c.ewtsId u)) := by
  cases c with
  | getLogger s =>
    obtain ⟨ref, href, rfl⟩ := Option.map_eq_some_iff.mp h
    obtain ⟨hstarts, hoverrides⟩ := getLogger_starts href
    refine ⟨(getLogger_spec host s hv).1, hstarts,
      fun id hid hne => sameFor_getLogger hv href hid hne, fun last hlast => ?_⟩
    rw [remember_own u last (host, .getLogger s), hoverrides]
    exact hlast
  | resetLogger s =>
    cases h
    refine ⟨(resetLogger_spec s hv).1, Or.inl rfl,
      fun id hid hne => sameFor_resetLogger hid hne, fun last hlast => ?_⟩
    rw [remember_own u last (host, .resetLogger s)]
    exact hlast
  | clearRuntimeOverride s =>
    cases h
    refine ⟨hv, Or.inl rfl, fun id hid hne => ⟨rfl, fun _ _ => rfl, ?_, rfl, rfl⟩,
      fun last _ => ?_⟩
    · apply Function.update_of_ne
      rw [resolveEwtsId_upper]
      exact hne.symm
    · have hnone : Python.clearRuntimeOverride u r.overrides (resolveEwtsId u s)
          (resolveEwtsId u s) = none := by
        unfold Python.clearRuntimeOverride
        rw [resolveEwtsId_upper, Function.update_self]
      rw [remember_own u last (host, .clearRuntimeOverride s)]
      exact (congrArg (Option.map some) hnone).symm
  | setupLogger s args =>
    obtain ⟨ref, href, rfl⟩ := Option.map_eq_some_iff.mp h
    obtain ⟨ov, r'', hov, hr'', hget, hsame⟩ := setupLogger_cases hw href
    have hv'' : r''.Valid u := by
      rw [hr'']
      exact (resetLogger_spec s hv).1
    obtain ⟨hstarts, hoverrides⟩ := getLogger_starts hget
    have hobjects : r''.objects = r.objects := by rw [hr'']; rfl
    rw [hsame]
    refine ⟨(getLogger_spec host s hv'').1, ?_, fun id hid hne => ?_, fun last _ => ?_⟩
    · unfold Starts at hstarts ⊢
      rw [hobjects] at hstarts
      exact hstarts
    · have hreset : r.SameFor r'' id := by
        have h := sameFor_resetLogger (r := r) hid hne
        rw [hr'']
        exact ⟨h.cache, h.object, Function.update_of_ne hne.symm .., h.wrapped, h.application⟩
      exact hreset.trans (sameFor_getLogger hv'' hget hid hne)
    · have hset : r''.overrides (resolveEwtsId u s) = some ov := by
        rw [hr'']
        exact Function.update_self ..
      rw [remember_own u last (host, .setupLogger s args), hoverrides]
      exact (congrArg some hov).trans (congrArg (Option.map some) hset).symm

end Calls

/-! ## Runs -/

/-- In every state of a history the override of an id is what its last setup stores. -/
theorem performAll_spec (hw : u.KeepsWords) (calls : List (Host × IdCall)) (r : Registry)
    (h : performAll u calls = some r) : r.Valid u ∧
      ∀ id, u.upper id = id → Remembered u (lastSetup u id calls) (r.overrides id) := by
  induction calls using List.reverseRecOn generalizing r with
  | nil =>
    cases h
    refine ⟨?_, fun _ _ => rfl⟩
    rintro id ref h
    cases h
  | append_singleton calls c ih =>
    unfold performAll at h
    rw [List.foldlM_append] at h
    obtain ⟨r₀, hr₀, hstep⟩ := Option.bind_eq_some_iff.mp h
    obtain ⟨hv, hlast⟩ := ih r₀ hr₀
    have hstep' : r₀.perform u (c.1, c.2) = some r := by
      simpa using hstep
    obtain ⟨hv', _, hframe, hown⟩ := perform_spec hw hv hstep'
    refine ⟨hv', fun id hid => ?_⟩
    rw [lastSetup_concat]
    by_cases hc : c.2.ewtsId u = id
    · subst hc
      exact hown _ (hlast _ hid)
    · have hother : remember u id (lastSetup u id calls) c = lastSetup u id calls := if_neg hc
      rw [hother, (hframe id hid hc).overrides]
      exact hlast id hid

/-- At every call of a history that does not raise, a new logger is configured by the last
setup of its id and the environment, and the other ids keep what is theirs. -/
theorem loggers_isolated (hw : u.KeepsWords) (calls : List (Host × IdCall)) (host : Host)
    (c : IdCall) (r r' : Registry) (h : performAll u calls = some r)
    (hc : r.perform u (host, c) = some r') :
    (r'.objects = r.objects ∨ ∃ o cfg, r'.objects = r.objects ++ [o] ∧
      StartedFrom u host r'.overrides (c.ewtsId u) cfg o ∧
        Configured u host (c.ewtsId u) (lastSetup u (c.ewtsId u) (calls ++ [(host, c)])) cfg) ∧
      ∀ s, c.ewtsId u ≠ resolveEwtsId u s → r.SameFor r' (resolveEwtsId u s) := by
  obtain ⟨hv, hlast⟩ := performAll_spec hw calls r h
  obtain ⟨_, hstarts, hframe, hown⟩ := perform_spec hw hv hc
  have hid : u.upper (c.ewtsId u) = c.ewtsId u := by
    cases c <;> exact resolveEwtsId_upper u _
  constructor
  · rcases hstarts with hsame | ⟨o, cfg, hobjects, hstarted⟩
    · exact Or.inl hsame
    · refine Or.inr ⟨o, cfg, hobjects, hstarted, ?_⟩
      rw [lastSetup_concat]
      exact hstarted.configured hid (hown _ (hlast _ hid))
  · exact fun s hne => hframe _ (resolveEwtsId_upper u s) hne

/-- A threshold that `setup_logger` gives survives a reset. -/
theorem loggers_isolated_reset :
    let setup : SetupArgs := ⟨none, some (.int 30), none, none, none⟩
    let calls := [(bareHost, .setupLogger (text "t-route") setup),
      (bareHost, .resetLogger (text "TROUTE"))]
    ∃ r r', performAll .ascii calls = some r ∧
      r.perform .ascii (bareHost, .getLogger (text " t-route ")) = some r' ∧
        (∃ o cfg, r'.objects = r.objects ++ [o] ∧ cfg.defaultLevel = 30 ∧
          StartedFrom .ascii bareHost r'.overrides (text "TROUTE") cfg o) ∧
            r.SameFor r' (resolveEwtsId .ascii (text "lstm")) := by
  intro setup calls
  have hrun : (performAll .ascii calls).isSome = true := by decide
  obtain ⟨r, hr⟩ := Option.isSome_iff_exists.mp hrun
  have hcall : ((performAll .ascii calls).bind fun r =>
      r.perform .ascii (bareHost, .getLogger (text " t-route "))).isSome = true := by decide
  rw [hr, Option.bind_some] at hcall
  obtain ⟨r', hr'⟩ := Option.isSome_iff_exists.mp hcall
  obtain ⟨hstarts, hframe⟩ := loggers_isolated Unicode.keepsWords_ascii calls bareHost
    (.getLogger (text " t-route ")) r r' hr hr'
  refine ⟨r, r', hr, hr', ?_⟩
  refine ⟨?_, hframe (text "lstm") (by decide)⟩
  rcases hstarts with hsame | ⟨o, cfg, hobjects, hstarted, hcfg⟩
  · have hlengths : ((performAll .ascii calls).bind fun r =>
        (r.perform .ascii (bareHost, .getLogger (text " t-route "))).map fun r' =>
          (r.objects.length, r'.objects.length)) = some (1, 2) := by decide
    rw [hr, Option.bind_some, hr', Option.map_some, hsame] at hlengths
    simp only [Option.some.injEq, Prod.mk.injEq] at hlengths
    omega
  · exact ⟨o, cfg, hobjects, hcfg.level, hstarted⟩

end Registry

end Ewts.Python
