import Ewts.Runtime.Python.Logger

/-!
# Starting a logger

`EwtsLogger._init` reads the configuration of an id, prints notices about it, and chooses
between the bridge, `stdout` and a pair of files. Several of its calls can raise.
-/

namespace Ewts.Python

/-- What a call meets outside the package. -/
structure Host where
  process : Process
  now : Timestamp
  /-- `os.path.expanduser` on the first part of a path. -/
  home : Text → Text
  /-- Whether a library of this name loads and has the function `ewts_ngen_log`. -/
  loads : Text → Bool
  /-- The error of a library that does not load. -/
  loadError : Text → Text
  /-- Whether `stdout` can encode a text. -/
  encodes : Text → Bool

/-- The attributes of an `EwtsLogger`; the wrapped logger is found under its name. -/
structure EwtsObject where
  ewtsId : Text
  bridge : Bool
  logPath : Option Text
  payloadLogPath : Option Text
  minLevel : Int

/-- The logger that an object and the level of its wrapped logger make up. -/
def EwtsObject.logger (o : EwtsObject) (pyLevel : Int) : EwtsLogger :=
  ⟨o.ewtsId, o.bridge, o.logPath, o.payloadLogPath, o.minLevel, pyLevel⟩

/-- `str(n)`, which refuses more than 4300 digits. -/
def intStr (n : Int) : Option Text :=
  if 4300 < (decimal n.natAbs).length then none
  else some (if n < 0 then ch '-' :: decimal n.natAbs else decimal n.natAbs)

/-- `_level_name(level)`. -/
def levelName (level : Int) : Option Text :=
  (intStr level).map fun s => ((levels.find? (·.2 = level)).map Prod.fst).getD s

/-- The name of a level read from the environment: `int` may refuse what `isdigit` accepts. -/
def envLevelName (u : Unicode) (v : Text) : Option Text :=
  if u.isDigits v then (u.toInt v).bind fun n => levelName n else some (u.upper v)

/-- A call that is made under a condition only. -/
def Py.when (b : Bool) (call : Py Unit) : Py Unit := if b then call else pure ()

/-- `make_log_path(log_dir, ewts_id, mpi_rank, log_file_name)`. -/
def makeLogPath (u : Unicode) (now : Timestamp) (logDir ewtsId : Text) (mpiRank : Int)
    (logFileName : Option Text) : Path :=
  let safeId := u.upper (if ewtsId = [] then text "UNKNOWN" else ewtsId)
  let rankPart := if 0 ≤ mpiRank then text "_rank_" ++ decimal mpiRank.toNat else []
  let fileName := match logFileName with
    | none | some [] => safeId ++ rankPart ++ ch '_' :: now.compact ++ text ".log"
    | some name => name
  (Path.parse logDir).join (Path.parse fileName)

/-- `_payload_log_path(log_path)`. -/
def payloadLogPath (logPath : Path) : Option Path :=
  logPath.withName (logPath.stem ++ text "_payload" ++ logPath.suffix)

/-- Print a line on `stdout`. -/
def printLine (host : Host) (line : Text) : Py Unit :=
  Py.of (if host.encodes line then some () else none)

/-- `_NgenBridge.try_load()`. -/
def tryLoad (host : Host) : Py Bool := do
  let soPath := strip (← getenvAny (text "EWTS_NGEN_BRIDGE_LIB") [])
  let candidates := (if soPath = [] then [] else [soPath]) ++ [text "libewts_ngen_bridge.so"]
  if candidates.any host.loads then return true
  else
    let debug ← getenvAny (text "EWTS_DEBUG") []
    if debug ≠ [] then
      printLine host (text "EWTS: failed to load ngen bridge: " ++
        host.loadError (text "libewts_ngen_bridge.so"))
    return false

/-- The notices of an enabled logger that starts for the first time. -/
def printLevel (u : Unicode) (host : Host) (linePrefix id : Text) (minLevel : Int) : Py Unit := do
  printLine host (linePrefix ++ text " logging is ENABLED")
  let moduleKey := id ++ text "_LOGLEVEL"
  let moduleVal := strip (← getenvAny moduleKey [])
  let defaultVal := strip (← getenvAny (text "EWTS_LOG_LEVEL") [])
  if moduleVal ≠ [] then
    let name ← Py.of (envLevelName u moduleVal)
    printLine host
      (linePrefix ++ text " log level from env var " ++ moduleKey ++ text " is " ++ name)
  else if defaultVal ≠ [] then
    let name ← Py.of (envLevelName u defaultVal)
    printLine host (linePrefix ++ text " log level from env var EWTS_LOG_LEVEL is " ++ name)
  else
    printLine host (linePrefix ++ text (" no module-specific or default EWTS log level env var " ++
      "found; defaulting to INFO"))
  let name ← Py.of (levelName minLevel)
  printLine host (linePrefix ++ text " log level set to " ++ name)

/-- `_init()` on a loaded configuration. Notices are only `due` at the first start of an id. -/
def EwtsObject.start (u : Unicode) (host : Host) (due : Bool) (id : Text) (cfg : EwtsConfig) :
    Py EwtsObject := do
  let linePrefix :=
    (if 0 ≤ cfg.mpiRank then text "[rank " ++ decimal cfg.mpiRank.toNat ++ text "] EWTS"
      else text "EWTS") ++ ch ' ' :: id
  let notice (t : Text) : Py Unit := Py.when due (printLine host (linePrefix ++ t))
  if !cfg.enabled then
    notice (text " logging is DISABLED")
    return ⟨id, false, none, none, 999⟩
  else
    Py.when due (printLevel u host linePrefix id cfg.defaultLevel)
    let bridge ← (if cfg.runningInNgen then tryLoad host else pure false : Py Bool)
    if bridge then
      notice (text " using ngen for logging")
      return ⟨id, true, none, none, cfg.defaultLevel⟩
    else match cfg.logDir with
      | none =>
        notice (text " using stdout logging")
        return ⟨id, false, none, none, cfg.defaultLevel⟩
      | some logDir =>
        let logPath := makeLogPath u host.now logDir id cfg.mpiRank cfg.logFileName
        let payloadPath ← Py.of (Python.payloadLogPath logPath)
        notice (text " logging to " ++ logPath.str)
        return ⟨id, false, some logPath.str, some payloadPath.str, cfg.defaultLevel⟩

/-- `_init()`. -/
def EwtsObject.init (u : Unicode) (host : Host) (overrides : Overrides) (due : Bool) (id : Text) :
    Py EwtsObject := do
  let cfg ← loadConfig u host.home overrides id
  EwtsObject.start u host due id cfg

/-! ## What a started logger is -/

/-- Every value that a call returns has a property. -/
structure Py.Returns {α : Type} (call : Py α) (P : α → Prop) : Prop where
  value : ∀ p, ∀ a ∈ (call.run p).1, P a

/-- A value is returned. -/
theorem Py.returns_pure {α : Type} {P : α → Prop} {a : α} (h : P a) :
    Py.Returns (pure a) P := by
  constructor
  rintro p b hb
  cases hb
  exact h

/-- What a call returns is returned by its last part, on a value of the first. -/
theorem Py.Returns.bind {α β : Type} {call : Py α} {rest : α → Py β} {Q : α → Prop}
    {P : β → Prop} (h : call.Returns Q) (hrest : ∀ a, Q a → (rest a).Returns P) :
    Py.Returns (call >>= rest) P := by
  constructor
  intro p b hb
  rw [Py.run_bind] at hb
  have ha := h.value p
  revert ha hb
  cases call.run p with
  | mk r q =>
    cases r with
    | none =>
      intro hb
      cases hb
    | some a =>
      intro hb ha
      exact (hrest a (ha a rfl)).value q b hb

/-- What follows a call decides what is returned. -/
theorem Py.Returns.then {α β : Type} {call : Py α} {rest : α → Py β} {P : β → Prop}
    (h : ∀ a, (rest a).Returns P) : Py.Returns (call >>= rest) P := by
  apply Py.Returns.bind (Q := fun _ => True)
  · exact ⟨fun _ _ _ => trivial⟩
  · exact fun a _ => h a

theorem Py.returns_of {α : Type} {P : α → Prop} {r : Option α} (h : ∀ a ∈ r, P a) :
    Py.Returns (Py.of r) P :=
  ⟨fun _ => h⟩

/-- A weaker condition holds as well. -/
theorem Py.Returns.mono {α : Type} {call : Py α} {P Q : α → Prop} (h : call.Returns P)
    (himp : ∀ a, P a → Q a) : call.Returns Q :=
  ⟨fun p a ha => himp a (h.value p a ha)⟩

/-- The library of the bridge, unless another one is set. -/
def bridgeLib : Text := text "libewts_ngen_bridge.so"

/-- What a start makes of a configuration. -/
inductive EwtsObject.Started (u : Unicode) (host : Host) (id : Text) (cfg : EwtsConfig) :
    EwtsObject → Prop
  | disabled (henabled : cfg.enabled = false) : Started u host id cfg ⟨id, false, none, none, 999⟩
  | bridged (henabled : cfg.enabled = true) (hngen : cfg.runningInNgen = true) :
    Started u host id cfg ⟨id, true, none, none, cfg.defaultLevel⟩
  | stdout (henabled : cfg.enabled = true)
    (hfailed : cfg.runningInNgen = true → host.loads bridgeLib = false)
    (hdir : cfg.logDir = none) : Started u host id cfg ⟨id, false, none, none, cfg.defaultLevel⟩
  | files (henabled : cfg.enabled = true)
    (hfailed : cfg.runningInNgen = true → host.loads bridgeLib = false) {logDir : Text}
    {payloadPath : Path} (hdir : cfg.logDir = some logDir)
    (hpayload : Python.payloadLogPath
      (makeLogPath u host.now logDir id cfg.mpiRank cfg.logFileName) = some payloadPath) :
    Started u host id cfg
      ⟨id, false, some (makeLogPath u host.now logDir id cfg.mpiRank cfg.logFileName).str,
        some payloadPath.str, cfg.defaultLevel⟩

/-- The bridge loads when its default library does. -/
theorem tryLoad_returns (host : Host) :
    Py.Returns (tryLoad host) fun bridge => bridge = false → host.loads bridgeLib = false := by
  apply Py.Returns.then
  intro v
  cases hloads : host.loads bridgeLib with
  | false => exact ⟨fun _ _ _ _ => rfl⟩
  | true =>
    rw [if_pos]
    · exact Py.returns_pure fun h => absurd h.symm Bool.false_ne_true
    · rw [List.any_append, Bool.or_eq_true]
      right
      simpa [bridgeLib] using hloads

/-- A start returns nothing else. -/
theorem EwtsObject.start_started (u : Unicode) (host : Host) (due : Bool) (id : Text)
    (cfg : EwtsConfig) : Py.Returns (start u host due id cfg) (Started u host id cfg) := by
  unfold start
  cases henabled : cfg.enabled with
  | false =>
    apply Py.Returns.then
    exact fun _ => Py.returns_pure (.disabled henabled)
  | true =>
    apply Py.Returns.then
    intro _
    apply Py.Returns.bind (Q := fun bridge => (bridge = true → cfg.runningInNgen = true) ∧
      (bridge = false → cfg.runningInNgen = true → host.loads bridgeLib = false))
    · cases cfg.runningInNgen with
      | false => exact Py.returns_pure ⟨fun h => h, fun _ h => absurd h Bool.false_ne_true⟩
      | true => exact (tryLoad_returns host).mono fun _ h => ⟨fun _ => rfl, fun hb _ => h hb⟩
    · rintro bridge ⟨hngen, hfailed⟩
      cases bridge with
      | true =>
        apply Py.Returns.then
        exact fun _ => Py.returns_pure (.bridged henabled (hngen rfl))
      | false =>
        cases hdir : cfg.logDir with
        | none =>
          apply Py.Returns.then
          exact fun _ => Py.returns_pure (.stdout henabled (hfailed rfl) hdir)
        | some logDir =>
          apply Py.Returns.bind (Py.returns_of fun _ h => h)
          intro payloadPath hpayload
          apply Py.Returns.then
          exact fun _ => Py.returns_pure (.files henabled (hfailed rfl) hdir hpayload)

/-- A started logger is the logger of its configuration, with the threshold at the wrapped
logger. -/
theorem EwtsObject.start_returns (u : Unicode) (host : Host) (due : Bool) (ewtsId : Text)
    (cfg : EwtsConfig) : Py.Returns (start u host due (u.upper ewtsId) cfg) fun o =>
      ∃ bridgeLoads files,
        o.logger o.minLevel = EwtsLogger.new u ewtsId cfg bridgeLoads files := by
  refine (start_started u host due (u.upper ewtsId) cfg).mono fun o ho => ?_
  unfold EwtsLogger.new
  cases ho with
  | disabled henabled => exact ⟨false, ([], []), by simp only [henabled]; rfl⟩
  | bridged henabled hngen => exact ⟨true, ([], []), by simp only [henabled, hngen]; rfl⟩
  | stdout henabled _ hdir =>
    refine ⟨false, ([], []), ?_⟩
    simp only [henabled, hdir, Bool.and_false]
    rfl
  | files henabled _ hdir =>
    exact ⟨false, (_, _), by simp only [henabled, hdir, Bool.and_false]; rfl⟩

/-- Where its library loads, a logger bridges exactly when it is enabled and runs in ngen. -/
theorem EwtsObject.Started.bridge {u : Unicode} {host : Host} {id : Text} {cfg : EwtsConfig}
    {o : EwtsObject} (ho : Started u host id cfg o) (h : host.loads bridgeLib = true) :
    o.bridge = (cfg.enabled && cfg.runningInNgen) := by
  have hno : (cfg.runningInNgen = true → host.loads bridgeLib = false) →
      cfg.runningInNgen = false := by
    rw [h]
    cases cfg.runningInNgen <;> simp
  cases ho with
  | disabled henabled => rw [henabled, Bool.false_and]
  | bridged henabled hngen => rw [henabled, hngen, Bool.and_self]
  | stdout _ hfailed => rw [hno hfailed, Bool.and_false]
  | files _ hfailed => rw [hno hfailed, Bool.and_false]

/-- A logger with a log file has the payload file beside it, and no bridge. -/
theorem EwtsObject.Started.paths {u : Unicode} {host : Host} {id : Text} {cfg : EwtsConfig}
    {o : EwtsObject} (ho : Started u host id cfg o) {path : Text} (hpath : o.logPath = some path) :
    o.bridge = false ∧ ∃ logPath payloadPath : Path, path = logPath.str ∧
      Python.payloadLogPath logPath = some payloadPath ∧
        o.payloadLogPath = some payloadPath.str := by
  cases ho with
  | disabled | bridged | stdout => cases hpath
  | files _ _ _ hpayload =>
    cases hpath
    exact ⟨rfl, _, _, rfl, hpayload, rfl⟩

/-- A logger has its id in upper case. -/
theorem EwtsLogger.new_ewtsId (u : Unicode) (ewtsId : Text) (cfg : EwtsConfig)
    (bridgeLoads : Bool) (files : Text × Text) :
    (EwtsLogger.new u ewtsId cfg bridgeLoads files).ewtsId = u.upper ewtsId := by
  unfold EwtsLogger.new
  simp only
  split
  · rfl
  · split
    · rfl
    · split <;> rfl

/-- So is every object that `_init` returns, for the configuration that it has loaded. -/
theorem EwtsObject.init_returns (u : Unicode) (host : Host) (overrides : Overrides) (due : Bool)
    (ewtsId : Text) : Py.Returns (init u host overrides due (u.upper ewtsId)) fun o =>
      ∃ cfg bridgeLoads files,
        o.logger o.minLevel = EwtsLogger.new u ewtsId cfg bridgeLoads files := by
  apply Py.Returns.then
  intro cfg
  constructor
  intro p o ho
  exact ⟨cfg, (start_returns u host due ewtsId cfg).value p o ho⟩

end Ewts.Python
