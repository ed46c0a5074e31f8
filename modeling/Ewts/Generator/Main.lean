import Ewts.Generator.Levels
import Ewts.Generator.Modules

/-!
# Generation

`main` loads the specifications of its target, prints a summary, and writes one file after the
other. A file is modelled by what the specifications put into it; writing it succeeds.
-/

namespace Ewts.Generator

open Python

/-! ## Inputs -/

/-- What a path of a specification leads to. -/
inductive Content where
  | missing
  /-- Not UTF-8, or not YAML or JSON. -/
  | unreadable
  | data (d : Data)

/-- A specification file. -/
structure SpecFile where
  path : Text
  /-- `_rel(repo_root, path)`. -/
  relPath : Text
  content : Content

/-- The specification files of a run. -/
structure Specs where
  registry : SpecFile
  logLevels : SpecFile
  payloadStatus : SpecFile

/-- The choices of `--generate`. -/
inductive Target where
  | all
  | modules
  | logLevels
  | payloadStatus
  deriving DecidableEq

/-- The spelling of a choice. -/
def Target.name : Target → Text
  | .all => text "all"
  | .modules => text "modules"
  | .logLevels => text "log-levels"
  | .payloadStatus => text "payload-status"

/-- `args.generate in {"all", group}`. -/
def Target.includes (target group : Target) : Bool := target = .all || target = group

/-- What a run finds outside its files. -/
structure Interpreter where
  unicode : Unicode
  /-- What `str` prints of a value that is no text. -/
  print : Data → Option Text
  /-- Whether `stdout` can encode a text. -/
  encodes : Text → Bool
  /-- `GEN_UTC`. -/
  genUtc : Text

/-! ## Payload statuses -/

/-- What the payload-status files are made from: `PAYLOAD_STATUSES` and metadata. -/
structure PayloadStatuses where
  statuses : Dict Text Text
  info : Meta

/-- The loop of `_load_payload_statuses`, behind the statuses that it has parsed. -/
def parseStatuses (u : Unicode) : Dict Text Text → List (Data × Data) →
    Except Stop (Dict Text Text)
  | parsed, [] => .ok parsed
  | parsed, (name, val) :: items =>
    let unnamed : Except Stop (Dict Text Text) :=
      .error (.exit (text "payload_status.json 'statuses' keys must be non-empty strings."))
    match name with
    | .str s =>
      let invalid : Except Stop (Dict Text Text) :=
        .error (.exit (text "payload_status.json status '" ++ s ++
          text "' must be a non-empty string, got " ++ val.typeName ++ text "."))
      if strip s = [] then unnamed
      else match val with
        | .str v =>
          if strip v = [] then invalid
          else parseStatuses u (parsed.set (u.upper (strip s)) (u.upper (strip v))) items
        | _ => invalid
    | _ => unnamed

/-- `_load_payload_statuses(payload_status_path)`. -/
def loadPayloadStatuses (u : Unicode) (print : Data → Option Text) (specPath : Text)
    (data : Data) : Except Stop PayloadStatuses :=
  match data with
  | .dict top => match lookupName top (text "statuses") with
    | some (.dict (item :: items)) => do
      let statuses ← parseStatuses u [] (item :: items)
      return ⟨statuses, ← jsonMeta print (text "payload_status.json") specPath top⟩
    | _ => .error (.exit (text "payload_status.json must contain a non-empty 'statuses' object."))
  | _ => .error (.exit (text "payload_status.json must be a JSON object at the top level."))

/-! ## Loading -/

/-- The data of a specification file. -/
def readSpec (kind : Text) (file : SpecFile) : Except Stop Data :=
  match file.content with
  | .missing => .error (.exit (kind ++ text " file not found: " ++ file.path))
  | .unreadable => .error .raised
  | .data d => .ok d

/-- What a run has loaded. A group that is not of the target stays `none`. -/
structure Loaded where
  modules : Option (Meta × List Module)
  logLevels : Option LogLevels
  payloadStatuses : Option PayloadStatuses

variable (py : Interpreter) (specs : Specs)

/-- The modules and their metadata. -/
def loadModules : Except Stop (Meta × List Module) := do
  let data ← readSpec (text "Registry") specs.registry
  let info ← registryMeta py.print specs.registry.relPath data
  return (info, ← readRegistry py.unicode py.print data)

/-- The levels. -/
def loadLevels : Except Stop LogLevels := do
  let data ← readSpec (text "Log-levels") specs.logLevels
  loadLogLevels py.print (text "INFO") specs.logLevels.relPath data

/-- The statuses. -/
def loadStatuses : Except Stop PayloadStatuses := do
  let data ← readSpec (text "Payload-status") specs.payloadStatus
  loadPayloadStatuses py.unicode py.print specs.payloadStatus.relPath data

/-- A group is loaded when the target includes it. -/
def loadGroup {α : Type} (included : Bool) (load : Except Stop α) : Except Stop (Option α) :=
  if included then load.map some else .ok none

/-- All that `main` loads before it writes. -/
def loadSpecs (target : Target) : Except Stop Loaded := do
  let modules ← loadGroup (target.includes .modules) (loadModules py specs)
  let logLevels ← loadGroup (target.includes .logLevels) (loadLevels py specs)
  let payloadStatuses ← loadGroup (target.includes .payloadStatus) (loadStatuses py specs)
  return ⟨modules, logLevels, payloadStatuses⟩

/-- A line of the summary about a specification. -/
def specLine (label : Text) (info : Meta) : Text :=
  text "  - " ++ label ++ text ": " ++ info.specPath ++ text " (version: " ++ info.specVersion ++
    text ")"

/-- The lines that `main` prints before it writes. -/
def summary (target : Target) (loaded : Loaded) : List Text :=
  [text "Using input specifications:", text "  - Generate target: " ++ target.name] ++
    (loaded.modules.map fun m => specLine (text "Module registry") m.1).toList ++
    (loaded.logLevels.map fun l => specLine (text "Log levels spec") l.info).toList ++
    (loaded.payloadStatuses.map fun s => specLine (text "Payload status spec") s.info).toList ++
    [text "  - Generation UTC:  " ++ py.genUtc, []]

/-! ## Files -/

/-- What a specification puts into a file. -/
inductive Body where
  /-- Nothing: the file is fixed. -/
  | fixed
  | constants (declarations : List Declaration)
  | enumeration (members assignments : List Declaration)
  | rows (rows : List Text)
  | arrays (table : FortranTable)
  | dictionaries (keyToId keyToDescription : Dict Text Text)
      (idToKeys idToDescriptions : Dict Text (List Text))
  | cases (cases : List (Text × LevelValue)) (default : Text)
  | levels (levels : Dict Text LevelValue) (default : Text)
  | statuses (statuses : Dict Text Text)
  | sizedStatuses (length : Nat) (statuses : Dict Text Text)

/-- A generated file, with the specification that its banner names. -/
structure File where
  path : Text
  info : Meta
  body : Body

/-- A generation: the files written so far, until it ends or stops. -/
abbrev Gen := ExceptT Stop (StateM (List File))

/-- `_write_text(path, content)`. -/
def writeText (path : Text) (info : Meta) (body : Body) : Gen Unit :=
  modify (· ++ [⟨path, info, body⟩])

/-- A line on `stdout`. -/
def printLine (line : Text) : Gen Unit :=
  if py.encodes line then pure () else throw .raised

section Generators

variable (u : Unicode) (info : Meta) (modules : List Module)

/-- `_generate_c_module_keys`. -/
def generateCModuleKeys : Gen Unit := do
  writeText (text "runtime/c/include/ewts/module_keys.h") info .fixed
  writeText (text "runtime/c/src/ewts/module_keys.c") info (.rows (cRows modules))

/-- `_generate_cpp_module_keys`. -/
def generateCppModuleKeys : Gen Unit :=
  writeText (text "runtime/cpp/include/ewts/module_keys.hpp") info (.rows (cppRows modules))

/-- `_generate_fortran_module_keys`. -/
def generateFortranModuleKeys : Gen Unit := do
  let table ← (fortranTable modules : Except Stop FortranTable)
  writeText (text "runtime/fortran/src/ewts/module_keys.f90") info (.arrays table)

/-- `_generate_python_module_keys`. -/
def generatePythonModuleKeys : Gen Unit :=
  writeText (text "runtime/python/ewts/src/ewts/module_keys.py") info
    (.dictionaries (keyToEwtsId modules) (keyToDescription modules) (ewtsIdToKeys modules)
      (ewtsIdToDescriptions modules))

/-- `_generate_c_module_constants`. -/
def generateCModuleConstants : Gen Unit :=
  writeText (text "runtime/c/include/ewts/module_constants.h") info
    (.constants (declarations u modules))

/-- `_generate_cpp_module_constants`. -/
def generateCppModuleConstants : Gen Unit :=
  writeText (text "runtime/cpp/include/ewts/module_constants.hpp") info
    (.constants (declarations u modules))

/-- `_generate_fortran_module_constants`. -/
def generateFortranModuleConstants : Gen Unit :=
  writeText (text "runtime/fortran/src/ewts/module_constants.f90") info
    (.constants (declarations u modules))

/-- `_generate_python_module_constants`. -/
def generatePythonModuleConstants : Gen Unit :=
  writeText (text "runtime/python/ewts/src/ewts/modules.py") info
    (.enumeration (enumMembers u modules) (assignments u modules))

/-- `_generate_ngen_module_constants`. -/
def generateNgenModuleConstants : Gen Unit :=
  writeText (text "integrations/ngen/include/ewts_ngen/ngen_module_constants.hpp") info
    (.constants (declarations u modules))

/-- `_generate_ngen_module_keys`. -/
def generateNgenModuleKeys : Gen Unit :=
  writeText (text "integrations/ngen/include/ewts_ngen/ngen_module_keys.hpp") info
    (.rows (cppRows modules))

/-- The module files. -/
def generateModules : Gen Unit := do
  generateCModuleKeys info (modulesForLanguage modules .c)
  generateCppModuleKeys info (modulesForLanguage modules .cpp)
  generateFortranModuleKeys info (modulesForLanguage modules .fortran)
  generatePythonModuleKeys info (modulesForLanguage modules .python)
  generateCModuleConstants u info (modulesForLanguage modules .c)
  generateCppModuleConstants u info (modulesForLanguage modules .cpp)
  generateFortranModuleConstants u info (modulesForLanguage modules .fortran)
  generatePythonModuleConstants u info (modulesForLanguage modules .python)
  generateNgenModuleConstants u info modules
  generateNgenModuleKeys info modules

end Generators

/-- The log-level files: `_generate_c_log_levels` and its companions for the other languages. -/
def generateLogLevels (spec : LogLevels) : Gen Unit := do
  writeText (text "runtime/c/include/ewts/log_levels.h") spec.info
    (.cases spec.sorted spec.defaultName)
  writeText (text "runtime/cpp/include/ewts/log_levels.hpp") spec.info
    (.cases spec.sorted spec.defaultName)
  writeText (text "runtime/fortran/src/ewts/log_levels.f90") spec.info
    (.cases spec.sorted spec.defaultName)
  writeText (text "runtime/python/ewts/src/ewts/log_levels.py") spec.info
    (.levels spec.levels spec.defaultName)

/-- The payload-status files: `_generate_c_payload_status` and its companions. -/
def generatePayloadStatuses (spec : PayloadStatuses) : Gen Unit := do
  writeText (text "runtime/c/include/ewts/payload_status.h") spec.info (.statuses spec.statuses)
  writeText (text "runtime/cpp/include/ewts/payload_status.hpp") spec.info
    (.statuses spec.statuses)
  writeText (text "runtime/fortran/src/ewts/payload_status.f90") spec.info
    (.sizedStatuses (((spec.statuses.map (·.2.length)).max?).getD 1) spec.statuses)

/-- All files of what has been loaded. -/
def generateFiles (u : Unicode) (loaded : Loaded) : Gen Unit := do
  loaded.modules.forM fun m => generateModules u m.1 m.2
  loaded.logLevels.forM generateLogLevels
  loaded.payloadStatuses.forM generatePayloadStatuses

/-- The target of a command line; `--only-payload-status` is an older spelling. -/
def targetOf (generate : Target) (onlyPayloadStatus : Bool) : Target :=
  if onlyPayloadStatus then .payloadStatus else generate

/-- `main()`, behind the command line. -/
def main (target : Target) : Gen Unit := do
  let loaded ← (loadSpecs py specs target : Except Stop Loaded)
  (summary py target loaded).forM (printLine py)
  generateFiles py.unicode loaded
  printLine py (text "Wrote EWTS generated files for target: " ++ target.name ++ text ".\n")
  printLine py (text "Generated files:")
  (← get).forM fun file => printLine py (text "  - " ++ file.path)

end Ewts.Generator
