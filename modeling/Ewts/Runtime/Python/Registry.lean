import Ewts.Runtime.Python.Start

/-!
# The registries of the Python runtime

The package keeps a cache of its loggers and a table of overrides; `logging` keeps the
named standard loggers. An `EwtsLogger` is wired to the standard logger of its name when
it is constructed, whether or not it enters the cache.
-/

namespace Ewts.Python

/-- `KEY_TO_EWTS_ID`. -/
def keyToEwtsId : List (Text × Text) :=
  [("forcing", "FORCING"), ("lstm", "LSTM"), ("topoflow-glacier", "TFGLACR"),
    ("t-route", "TROUTE"), ("msw-mgr", "MSWMGR"), ("cal-mgr", "CALMGR"),
    ("eval-mgr", "EVALMGR"), ("fcst-mgr", "FCSTMGR"), ("rte", "RTE"),
    ("assim-engine", "ASSIM")].map fun e => (text e.1, text e.2)

/-- The keys of `EWTS_ID_TO_KEYS`. -/
def knownIds : List Text := keyToEwtsId.map Prod.snd

/-- `_resolve_ewts_id(module_key_or_ewts_id)`. -/
def resolveEwtsId (u : Unicode) (s : Text) : Text :=
  if strip s = [] then text "UNKNOWN"
  else (keyToEwtsId.lookup (strip s)).getD (u.upper (strip s))

/-- A handler of a standard logger. -/
inductive Handler where
  /-- An `EwtsHandler` that forwards to an object. -/
  | ewts (ref : Nat)
  | other (handler : Nat)
  deriving DecidableEq

/-- `isinstance(h, EwtsHandler)`. -/
def Handler.isEwts : Handler → Bool
  | .ewts _ => true
  | .other _ => false

/-- A standard logger. -/
structure PyLogger where
  level : Int
  handlers : List Handler
  filters : List Nat
  propagate : Bool
  disabled : Bool

/-- A standard logger that nobody has configured. -/
def PyLogger.fresh : PyLogger := ⟨0, [], [], true, false⟩

/-- The state of the package and of `logging`. An object is referred to by its place. -/
structure Registry where
  objects : List EwtsObject
  cache : Text → Option Nat
  pyLoggers : Text → PyLogger
  overrides : Overrides
  initPrinted : Text → Bool

namespace Registry

/-- The state after import. -/
def initial : Registry := ⟨[], fun _ => none, fun _ => .fresh, fun _ => none, fun _ => false⟩

/-- The name of the wrapped logger. -/
def pyName (ewtsId : Text) : Text := text "ewts." ++ ewtsId

variable (u : Unicode) (host : Host) (r : Registry)

/-- A change of one standard logger. -/
def setPyLogger (name : Text) (py : PyLogger) : Registry :=
  { r with pyLoggers := Function.update r.pyLoggers name py }

/-- The new object takes the standard logger of its name over from earlier ones. -/
def wire (o : EwtsObject) : Registry :=
  let py := r.pyLoggers (pyName o.ewtsId)
  { r.setPyLogger (pyName o.ewtsId)
      { py with
        level := o.minLevel
        propagate := false
        handlers := py.handlers.filter (!·.isEwts) ++ [.ewts r.objects.length] } with
    objects := r.objects ++ [o]
    initPrinted := Function.update r.initPrinted o.ewtsId true }

/-- `EwtsLogger(ewts_id)`; it is `none` when the construction raises. -/
def construct (ewtsId : Text) : Option EwtsObject :=
  let id := u.upper ewtsId
  ((EwtsObject.init u host r.overrides (!r.initPrinted id) id).run host.process).1

/-- `get_logger(module_key_or_ewts_id)`. -/
def getLogger (s : Text) : Option Nat × Registry :=
  let id := resolveEwtsId u s
  match r.cache id with
  | some ref => (some ref, r)
  | none =>
    match r.construct u host id with
    | none => (none, r)
    | some o =>
      (some r.objects.length,
        { r.wire o with cache := Function.update r.cache id (some r.objects.length) })

/-- `reset_logger(module_key_or_ewts_id)`. -/
def resetLogger (s : Text) : Registry :=
  let id := resolveEwtsId u s
  { (r.setPyLogger (pyName id) .fresh).setPyLogger id .fresh with
    cache := Function.update r.cache id none
    initPrinted := Function.update r.initPrinted id false }

/-- A level given to `setup_logger`. -/
inductive LevelArg where
  | int (level : Int)
  | str (name : Text)

/-- `parse_log_level(level)`. -/
def parseLogLevel : LevelArg → Int
  | .int level => level
  | .str name => (levels.lookup (u.upper (strip name))).getD infoLevel

/-- The keyword arguments of `setup_logger`. -/
structure SetupArgs where
  enabled : Option Bool
  level : Option LevelArg
  logDir : Option Text
  logFileName : Option Text
  runningInNgen : Option Bool

/-- The override that `setup_logger` sets. -/
def SetupArgs.override (args : SetupArgs) : EwtsRuntimeOverride :=
  ⟨args.enabled, args.level.map (parseLogLevel u), args.logDir, args.logFileName,
    args.runningInNgen⟩

/-- `setup_logger(module_key_or_ewts_id, ..)`. -/
def setupLogger (s : Text) (args : SetupArgs) : Option Nat × Registry :=
  let id := resolveEwtsId u s
  let r' := r.resetLogger u id
  match setRuntimeOverride u host.home r'.overrides id (args.override u) with
  | none => (none, r')
  | some overrides => { r' with overrides := overrides }.getLogger u host id

/-- `configure_existing_logger(logging.getLogger(name))`. -/
def configureExistingLogger (name : Text) : Registry :=
  if name ∉ knownIds then r
  else
    let py := r.pyLoggers name
    let r' := r.setPyLogger name
      { py with handlers := [], filters := [], propagate := false, disabled := false }
    match r'.construct u host name with
    | none => r'
    | some o =>
      let r'' := r'.wire o
      let py := r''.pyLoggers name
      r''.setPyLogger name
        { py with
          level := o.minLevel
          handlers := py.handlers ++ [.ewts r'.objects.length] }

/-- `setLevel(level)` on the object of a reference. -/
def setLevel (ref : Nat) (level : Int) : Registry :=
  match r.objects[ref]? with
  | none => r
  | some o =>
    { r.setPyLogger (pyName o.ewtsId) { r.pyLoggers (pyName o.ewtsId) with level := level } with
      objects := r.objects.set ref { o with minLevel := level } }

/-- The logger of a reference. -/
def logger (ref : Nat) : Option EwtsLogger :=
  r.objects[ref]?.map fun o => o.logger (r.pyLoggers (pyName o.ewtsId)).level

/-! ## Loggers of the registry -/

variable {u host r} {ewtsId : Text} {o : EwtsObject}

/-- A wired object stands at the end. -/
theorem getElem?_wire_new (o : EwtsObject) :
    (r.wire o).objects[r.objects.length]? = some o :=
  List.getElem?_concat_length

/-- Its logger has its level. -/
@[simp] theorem level_wire (o : EwtsObject) :
    ((r.wire o).pyLoggers (pyName o.ewtsId)).level = o.minLevel := by
  simp [wire, setPyLogger]

/-- A new object is the logger of some configuration, under its upper-cased id. -/
theorem construct_logger (h : r.construct u host ewtsId = some o) :
    o.ewtsId = u.upper ewtsId ∧ ∃ cfg bridgeLoads files,
      (r.wire o).logger r.objects.length =
        some (EwtsLogger.new u ewtsId cfg bridgeLoads files) := by
  obtain ⟨cfg, bridgeLoads, files, hnew⟩ :=
    (EwtsObject.init_returns u host r.overrides _ ewtsId).value host.process o h
  refine ⟨?_, cfg, bridgeLoads, files, ?_⟩
  · have hid := congrArg EwtsLogger.ewtsId hnew
    rwa [EwtsLogger.new_ewtsId] at hid
  · rw [logger, getElem?_wire_new, Option.map_some, level_wire, hnew]

end Registry

end Ewts.Python
