import Ewts.Correctness.Identifiers
import Ewts.Generator.Main

/-!
# All or nothing

All specifications are loaded before the first file is written. Behind that only the arrays of
Fortran can fail, which have no length when there is no module: then the files of C and C++
have been written, and no others.
-/

namespace Ewts.Generator

/-! ## Running a generation -/

/-- The outcome of a generation, and the files it leaves. -/
def Gen.exec {α : Type} (g : Gen α) (files : List File) : Except Stop α × List File :=
  g.run.run files

section Rules

variable {α β : Type} {files : List File}

theorem Gen.exec_bind (g : Gen α) (rest : α → Gen β) (files : List File) :
    (g >>= rest).exec files = match g.exec files with
      | (.ok a, files) => (rest a).exec files
      | (.error e, files) => (.error e, files) := by
  unfold Gen.exec
  rw [ExceptT.run_bind, StateT.run_bind]
  cases hrun : StateT.run (ExceptT.run g) files with
  | mk r files =>
    simp only [bind]
    cases r <;> rfl

theorem Gen.exec_lift (r : Except Stop α) (files : List File) :
    (liftM r : Gen α).exec files = (r, files) := rfl

theorem exec_printLine (py : Interpreter) (line : Text) (files : List File) :
    (printLine py line).exec files =
      (if py.encodes line then .ok () else .error .raised, files) := by
  unfold printLine
  split <;> rfl

/-- A generation that writes the files of some paths, one after the other. -/
structure Writes (g : Gen Unit) (paths : List Text) : Prop where
  exec : ∀ files, ∃ more, g.exec files = (.ok (), files ++ more) ∧ more.map File.path = paths

theorem writes_nothing : Writes (pure ()) [] :=
  ⟨fun files => ⟨[], by rw [List.append_nil]; rfl, rfl⟩⟩

theorem writes_writeText (path : Text) (info : Meta) (body : Body) :
    Writes (writeText path info body) [path] :=
  ⟨fun _ => ⟨[⟨path, info, body⟩], rfl, rfl⟩⟩

/-- One generation behind another. -/
theorem Writes.bind {g : Gen Unit} {rest : Unit → Gen Unit} {paths more : List Text}
    (h : Writes g paths) (hrest : Writes (rest ()) more) :
    Writes (g >>= rest) (paths ++ more) := by
  constructor
  intro files
  obtain ⟨written, hexec, hpaths⟩ := h.exec files
  obtain ⟨written', hexec', hpaths'⟩ := hrest.exec (files ++ written)
  refine ⟨written ++ written', ?_, ?_⟩
  · rw [Gen.exec_bind, hexec]
    simp only [hexec', List.append_assoc]
  · rw [List.map_append, hpaths, hpaths']

/-- A generation that leaves the files alone. -/
structure Silent (g : Gen α) : Prop where
  exec : ∀ files, (g.exec files).2 = files

theorem silent_printLine (py : Interpreter) (line : Text) : Silent (printLine py line) :=
  ⟨fun files => by rw [exec_printLine]⟩

theorem silent_get : Silent (get : Gen (List File)) := ⟨fun _ => rfl⟩

theorem Silent.bind {g : Gen α} {rest : α → Gen β} (h : Silent g)
    (hrest : ∀ a, Silent (rest a)) : Silent (g >>= rest) := by
  constructor
  intro files
  have hfiles := h.exec files
  rw [Gen.exec_bind]
  cases hexec : g.exec files with
  | mk r files' =>
    rw [hexec] at hfiles
    cases r with
    | error e => exact hfiles
    | ok a => exact ((hrest a).exec files').trans hfiles

theorem silent_forM {f : α → Gen Unit} (h : ∀ a, Silent (f a)) (l : List α) :
    Silent (l.forM f) := by
  induction l with
  | nil => exact ⟨fun _ => rfl⟩
  | cons a l ih =>
    rw [List.forM_eq_forM, List.forM_cons]
    rw [List.forM_eq_forM] at ih
    exact (h a).bind fun _ => ih

end Rules

/-! ## The files of a target -/

/-- The files about modules, in the order in which they are written. -/
def moduleFiles : List Text :=
  [text "runtime/c/include/ewts/module_keys.h",
    text "runtime/c/src/ewts/module_keys.c",
    text "runtime/cpp/include/ewts/module_keys.hpp",
    text "runtime/fortran/src/ewts/module_keys.f90",
    text "runtime/python/ewts/src/ewts/module_keys.py",
    text "runtime/c/include/ewts/module_constants.h",
    text "runtime/cpp/include/ewts/module_constants.hpp",
    text "runtime/fortran/src/ewts/module_constants.f90",
    text "runtime/python/ewts/src/ewts/modules.py",
    text "integrations/ngen/include/ewts_ngen/ngen_module_constants.hpp",
    text "integrations/ngen/include/ewts_ngen/ngen_module_keys.hpp"]

/-- The files about log levels. -/
def levelFiles : List Text :=
  [text "runtime/c/include/ewts/log_levels.h",
    text "runtime/cpp/include/ewts/log_levels.hpp",
    text "runtime/fortran/src/ewts/log_levels.f90",
    text "runtime/python/ewts/src/ewts/log_levels.py"]

/-- The files about payload statuses. -/
def statusFiles : List Text :=
  [text "runtime/c/include/ewts/payload_status.h",
    text "runtime/cpp/include/ewts/payload_status.hpp",
    text "runtime/fortran/src/ewts/payload_status.f90"]

/-- All files of a target. -/
def Target.outputs (target : Target) : List Text :=
  (if target.includes .modules then moduleFiles else []) ++
    (if target.includes .logLevels then levelFiles else []) ++
      if target.includes .payloadStatus then statusFiles else []

/-- A run has written all files of its target, or has stopped before it has written any. -/
def AllOrNothing (target : Target) (r : Except Stop Unit × List File) : Prop :=
  r.2.map File.path = target.outputs ∨ (∃ stop, r.1 = .error stop) ∧ r.2 = []

/-! ## Generators -/

section Generators

variable (u : Python.Unicode) (info : Meta)

/-- There are arrays exactly when there are modules. -/
theorem fortranTable_spec (modules : List Module) :
    (modules ≠ [] → ∃ table, fortranTable modules = .ok table) ∧
      (modules = [] → fortranTable modules = .error .raised) := by
  constructor
  · intro hne
    have hmax : ∀ f : Module → Nat, ∃ n, maxLength (modules.map f) = .ok n := by
      intro f
      unfold maxLength
      cases hmax : (modules.map f).max? with
      | none => exact absurd (List.map_eq_nil_iff.mp (List.max?_eq_none_iff.mp hmax)) hne
      | some n => exact ⟨n, rfl⟩
    obtain ⟨m, hm⟩ := hmax (·.key.length)
    obtain ⟨n, hn⟩ := hmax (·.ewtsId.length)
    exact ⟨_, by rw [fortranTable, hm, hn]; rfl⟩
  · rintro rfl
    rfl

/-- The arrays of modules are written. -/
theorem writes_fortranModuleKeys {modules : List Module} (h : modules ≠ []) :
    Writes (generateFortranModuleKeys info modules)
      [text "runtime/fortran/src/ewts/module_keys.f90"] := by
  obtain ⟨table, htable⟩ := (fortranTable_spec modules).1 h
  have hwrite := writes_writeText (text "runtime/fortran/src/ewts/module_keys.f90") info
    (.arrays table)
  constructor
  intro files
  rw [generateFortranModuleKeys, Gen.exec_bind, Gen.exec_lift, htable]
  exact hwrite.exec files

/-- The first three files are those of C and C++. -/
theorem writes_cModuleKeys (modules : List Module) : Writes (generateCModuleKeys info modules)
    [text "runtime/c/include/ewts/module_keys.h", text "runtime/c/src/ewts/module_keys.c"] :=
  (writes_writeText ..).bind (writes_writeText ..)

theorem writes_cppModuleKeys (modules : List Module) :
    Writes (generateCppModuleKeys info modules)
      [text "runtime/cpp/include/ewts/module_keys.hpp"] :=
  writes_writeText ..

/-- With a Fortran module all module files are written. -/
theorem writes_modules {modules : List Module}
    (h : modulesForLanguage modules .fortran ≠ []) :
    Writes (generateModules u info modules) moduleFiles :=
  (writes_cModuleKeys info _).bind <| (writes_cppModuleKeys info _).bind <|
    (writes_fortranModuleKeys info h).bind <| (writes_writeText ..).bind <|
      (writes_writeText ..).bind <| (writes_writeText ..).bind <| (writes_writeText ..).bind <|
        (writes_writeText ..).bind <| (writes_writeText ..).bind <| writes_writeText ..

/-- Without one the run stops behind the first three. -/
theorem exec_modules_of_none {modules : List Module}
    (h : modulesForLanguage modules .fortran = []) (files : List File) :
    ∃ more, (generateModules u info modules).exec files = (.error .raised, files ++ more) ∧
      more.map File.path = moduleFiles.take 3 := by
  obtain ⟨more, hc, hpaths⟩ := (writes_cModuleKeys info (modulesForLanguage modules .c)).exec files
  obtain ⟨more', hcpp, hpaths'⟩ :=
    (writes_cppModuleKeys info (modulesForLanguage modules .cpp)).exec (files ++ more)
  refine ⟨more ++ more', ?_, ?_⟩
  · rw [generateModules, Gen.exec_bind, hc]
    simp only
    rw [Gen.exec_bind, hcpp]
    simp only
    rw [Gen.exec_bind, generateFortranModuleKeys, Gen.exec_bind, Gen.exec_lift,
      (fortranTable_spec _).2 h, List.append_assoc]
  · rw [List.map_append, hpaths, hpaths']
    rfl

theorem writes_levels (spec : LogLevels) : Writes (generateLogLevels spec) levelFiles :=
  (writes_writeText ..).bind <| (writes_writeText ..).bind <| (writes_writeText ..).bind <|
    writes_writeText ..

theorem writes_statuses (spec : PayloadStatuses) :
    Writes (generatePayloadStatuses spec) statusFiles :=
  (writes_writeText ..).bind <| (writes_writeText ..).bind <| writes_writeText ..

end Generators

/-! ## Runs -/

/-- A group that has been loaded is written, and only such a group. -/
theorem writes_group {α : Type} {group : Option α} {generate : α → Gen Unit} {paths : List Text}
    (h : ∀ a ∈ group, Writes (generate a) paths) :
    Writes (group.forM generate) (if group.isSome then paths else []) := by
  cases group with
  | none => exact writes_nothing
  | some a => exact h a rfl

/-- A group is loaded exactly when the target includes it. -/
theorem loadGroup_isSome {α : Type} {included : Bool} {load : Except Stop α} {group : Option α}
    (h : loadGroup included load = .ok group) : group.isSome = included := by
  unfold loadGroup at h
  cases included with
  | false =>
    cases h
    rfl
  | true =>
    cases load with
    | error e => cases h
    | ok a =>
      cases h
      rfl

/-- The groups of a target are loaded. -/
theorem loadSpecs_spec {py : Interpreter} {specs : Specs} {target : Target} {loaded : Loaded}
    (h : loadSpecs py specs target = .ok loaded) :
    loaded.modules.isSome = target.includes .modules ∧
      loaded.logLevels.isSome = target.includes .logLevels ∧
        loaded.payloadStatuses.isSome = target.includes .payloadStatus := by
  unfold loadSpecs at h
  cases hmodules : loadGroup (target.includes .modules) (loadModules py specs) with
  | error e => rw [hmodules] at h; cases h
  | ok modules =>
    cases hlevels : loadGroup (target.includes .logLevels) (loadLevels py specs) with
    | error e => rw [hmodules, hlevels] at h; cases h
    | ok levels =>
      cases hstatuses : loadGroup (target.includes .payloadStatus) (loadStatuses py specs) with
      | error e => rw [hmodules, hlevels, hstatuses] at h; cases h
      | ok statuses =>
        rw [hmodules, hlevels, hstatuses] at h
        cases h
        exact ⟨loadGroup_isSome hmodules, loadGroup_isSome hlevels, loadGroup_isSome hstatuses⟩

/-- Lines are printed when they can be encoded, and write no file. -/
theorem exec_printLines (py : Interpreter) (lines : List Text) (files : List File) :
    (lines.forM (printLine py)).exec files =
      (if lines.all py.encodes then .ok () else .error .raised, files) := by
  induction lines with
  | nil => rfl
  | cons line lines ih =>
    rw [List.forM_eq_forM, List.forM_cons, Gen.exec_bind, exec_printLine]
    rw [List.forM_eq_forM] at ih
    cases hline : py.encodes line with
    | true =>
      simp only [if_true, ih, List.all_cons, hline, Bool.true_and]
    | false => simp [hline]

section Main

variable (py : Interpreter) (specs : Specs) (target : Target)

/-- A run that cannot load a specification writes nothing. -/
theorem exec_main_of_error {stop : Stop} (h : loadSpecs py specs target = .error stop) :
    (main py specs target).exec [] = (.error stop, []) := by
  rw [main, Gen.exec_bind, Gen.exec_lift, h]

/-- A run that cannot print its summary writes nothing. -/
theorem exec_main_of_unprintable {loaded : Loaded}
    (h : loadSpecs py specs target = .ok loaded)
    (hprint : (summary py target loaded).all py.encodes = false) :
    (main py specs target).exec [] = (.error .raised, []) := by
  rw [main, Gen.exec_bind, Gen.exec_lift, h]
  simp only
  rw [Gen.exec_bind, exec_printLines, hprint]
  rfl

/-- Any other run leaves the files that it generates. -/
theorem files_main {loaded : Loaded} (h : loadSpecs py specs target = .ok loaded)
    (hprint : (summary py target loaded).all py.encodes = true) :
    ((main py specs target).exec []).2 = ((generateFiles py.unicode loaded).exec []).2 := by
  rw [main, Gen.exec_bind, Gen.exec_lift, h]
  simp only
  rw [Gen.exec_bind, exec_printLines, hprint, if_pos rfl]
  simp only
  rw [Gen.exec_bind]
  cases hexec : (generateFiles py.unicode loaded).exec [] with
  | mk r files =>
    cases r with
    | error e => rfl
    | ok _ =>
      -- What is printed behind the last file leaves the files alone.
      refine Silent.exec (Silent.bind (silent_printLine ..) fun _ =>
        Silent.bind (silent_printLine ..) fun _ => Silent.bind silent_get fun all => ?_) files
      exact silent_forM (fun _ => silent_printLine ..) all

end Main

/-- The files of a target are written when there is a Fortran module, or no module is asked for. -/
theorem writes_files {u : Python.Unicode} {loaded : Loaded}
    (h : ∀ info modules, loaded.modules = some (info, modules) →
      ∃ m ∈ modules, m.language = .fortran) :
    Writes (generateFiles u loaded)
      ((if loaded.modules.isSome then moduleFiles else []) ++
        ((if loaded.logLevels.isSome then levelFiles else []) ++
          if loaded.payloadStatuses.isSome then statusFiles else [])) := by
  refine (writes_group ?_).bind <| (writes_group ?_).bind <| writes_group ?_
  · rintro ⟨info, modules⟩ hmodules
    obtain ⟨m, hm, hlanguage⟩ := h info modules hmodules
    apply writes_modules
    exact List.ne_nil_of_mem (List.mem_filter.mpr ⟨hm, decide_eq_true hlanguage⟩)
  · exact fun spec _ => writes_levels spec
  · exact fun spec _ => writes_statuses spec

/-- Without a Fortran module the first three files are left, and no others. -/
theorem files_of_none (u : Python.Unicode) {loaded : Loaded} {info : Meta}
    {modules : List Module} (hsome : loaded.modules = some (info, modules))
    (hnone : ¬ ∃ m ∈ modules, m.language = .fortran) :
    ((generateFiles u loaded).exec []).2.map File.path = moduleFiles.take 3 := by
  have hfortran : modulesForLanguage modules .fortran = [] := by
    apply List.filter_eq_nil_iff.mpr
    intro m hm hlanguage
    exact hnone ⟨m, hm, of_decide_eq_true hlanguage⟩
  obtain ⟨more, hexec, hpaths⟩ := exec_modules_of_none u info hfortran []
  have hmore : (generateFiles u loaded).exec [] = (.error .raised, more) := by
    rw [generateFiles, hsome, Gen.exec_bind]
    simp only [Option.forM, hexec, List.nil_append]
  rw [hmore]
  exact hpaths

/-- These are not the files of a target with modules. -/
theorem take_ne_outputs {target : Target} (h : target.includes .modules = true) :
    moduleFiles.take 3 ≠ target.outputs := by
  intro houtputs
  have hlength := congrArg List.length houtputs
  rw [Target.outputs, if_pos h, List.append_assoc, List.length_append, List.length_take] at hlength
  have hcount : moduleFiles.length = 11 := rfl
  omega

/-- A run is all or nothing exactly when it does not generate module files from an accepted
registry without a Fortran module. -/
theorem generation_all_or_nothing_iff (py : Interpreter) (specs : Specs) (generate : Target)
    (onlyPayloadStatus : Bool) :
    AllOrNothing (targetOf generate onlyPayloadStatus)
        ((main py specs (targetOf generate onlyPayloadStatus)).exec []) ↔
      ∀ loaded, loadSpecs py specs (targetOf generate onlyPayloadStatus) = .ok loaded →
        (summary py (targetOf generate onlyPayloadStatus) loaded).all py.encodes = true →
          ∀ info modules, loaded.modules = some (info, modules) →
            ∃ m ∈ modules, m.language = .fortran := by
  generalize targetOf generate onlyPayloadStatus = target
  cases hload : loadSpecs py specs target with
  | error stop =>
    rw [exec_main_of_error py specs target hload]
    exact iff_of_true (Or.inr ⟨⟨stop, rfl⟩, rfl⟩) fun loaded h => nomatch h
  | ok loaded =>
    cases hprint : (summary py target loaded).all py.encodes with
    | false =>
      rw [exec_main_of_unprintable py specs target hload hprint]
      refine iff_of_true (Or.inr ⟨⟨_, rfl⟩, rfl⟩) fun loaded' h hprint' => ?_
      cases h
      rw [hprint] at hprint'
      cases hprint'
    | true =>
      obtain ⟨hmodules, hlevels, hstatuses⟩ := loadSpecs_spec hload
      have hfiles := files_main py specs target hload hprint
      have hcondition : (∀ loaded', Except.ok loaded = (Except.ok loaded' : Except Stop Loaded) →
          (summary py target loaded').all py.encodes = true →
            ∀ info modules, loaded'.modules = some (info, modules) →
              ∃ m ∈ modules, m.language = .fortran) ↔
          ∀ info modules, loaded.modules = some (info, modules) →
            ∃ m ∈ modules, m.language = .fortran := by
        constructor
        · exact fun h => h loaded rfl hprint
        · rintro h _ ⟨⟩ _
          exact h
      rw [hcondition]
      constructor
      · intro hall info modules hsome
        by_contra hnone
        have hpaths := files_of_none py.unicode hsome hnone
        rw [hsome, Option.isSome_some] at hmodules
        rw [AllOrNothing, hfiles] at hall
        rcases hall with houtputs | ⟨_, hnil⟩
        · exact take_ne_outputs hmodules.symm (hpaths.symm.trans houtputs)
        · rw [hnil] at hpaths
          cases hpaths
      · intro h
        obtain ⟨more, hexec, hpaths⟩ := (writes_files (u := py.unicode) h).exec []
        left
        rw [hfiles, hexec, List.nil_append, hpaths, hmodules, hlevels, hstatuses,
          ← List.append_assoc]
        rfl

/-- An interpreter with the ASCII part of Unicode. -/
def sampleInterpreter : Interpreter :=
  ⟨.ascii, fun _ => none, fun _ => true, text "2026-01-01T00:00:00Z"⟩

/-- A registry of one Python module. -/
def pythonSpecs : Specs where
  registry := ⟨text "/ewts/spec/module_registry.yaml", text "spec/module_registry.yaml",
    .data (sampleRegistry [("lstm", "LSTM", "python")])⟩
  logLevels := ⟨text "/ewts/spec/log_levels.json", text "spec/log_levels.json", .missing⟩
  payloadStatus :=
    ⟨text "/ewts/spec/payload_status.json", text "spec/payload_status.json", .missing⟩

/-- Its generation writes the files of C and C++, and stops. -/
theorem generation_stops_midway :
    ((main sampleInterpreter pythonSpecs .modules).exec []).2.map File.path =
        moduleFiles.take 3 ∧
      ¬ AllOrNothing .modules ((main sampleInterpreter pythonSpecs .modules).exec []) := by
  have hfiles : ((main sampleInterpreter pythonSpecs .modules).exec []).2.map File.path =
      moduleFiles.take 3 := by
    rfl
  refine ⟨hfiles, ?_⟩
  rintro (houtputs | ⟨_, hnil⟩)
  · rw [hfiles] at houtputs
    have hlength := congrArg List.length houtputs
    exact absurd hlength (by decide)
  · rw [hnil] at hfiles
    cases hfiles

end Ewts.Generator
