import Ewts.Runtime.Python.Config

/-!
# The Python logger

`EwtsLogger` keeps a threshold of its own and wraps a standard logger. A record
passes the effective level of the standard logger, is mapped down to an EWTS level,
and passes the threshold before it reaches the sink.
-/

namespace Ewts.Python

/-- The state of an `EwtsLogger`. -/
structure EwtsLogger where
  ewtsId : Text
  /-- Whether the ngen bridge is loaded. -/
  bridge : Bool
  logPath : Option Text
  payloadLogPath : Option Text
  minLevel : Int
  /-- The own level of the wrapped standard logger. -/
  pyLevel : Int

/-- What a record becomes at the sink. -/
inductive Output where
  /-- A call of `ewts_ngen_log`. -/
  | bridge (ewtsId : Text) (level : Int) (message : Text)
  /-- Text printed to stdout. -/
  | print (s : Text)
  /-- Text appended to a file. -/
  | append (path s : Text)
  deriving DecidableEq

/-- The text that an output adds to stdout or to a file. -/
def Output.sunk : Output → Option Text
  | .bridge _ _ _ => none
  | .print s => some s
  | .append _ s => some s

/-- `EwtsLogger(ewts_id)` from its configuration; `files` are the log and payload files
of a configured log directory. A disabled logger gets a threshold above all levels. -/
def EwtsLogger.new (u : Unicode) (ewtsId : Text) (cfg : EwtsConfig) (bridgeLoads : Bool)
    (files : Text × Text) : EwtsLogger :=
  let id := u.upper ewtsId
  if !cfg.enabled then ⟨id, false, none, none, 999, 999⟩
  else if cfg.runningInNgen && bridgeLoads then
    ⟨id, true, none, none, cfg.defaultLevel, cfg.defaultLevel⟩
  else if cfg.logDir.isNone then ⟨id, false, none, none, cfg.defaultLevel, cfg.defaultLevel⟩
  else ⟨id, false, some files.1, some files.2, cfg.defaultLevel, cfg.defaultLevel⟩

/-- `_map_python_level_to_ewts(level)`. -/
def mapPythonLevelToEwts (level : Int) : Int :=
  if 60 ≤ level then 60
  else if 50 ≤ level then 50
  else if 40 ≤ level then 40
  else if 30 ≤ level then 30
  else if 20 ≤ level then 20
  else if 15 ≤ level then 15
  else 10

/-- One line behind its prefix. -/
def prefixed (linePrefix line : Text) : Text := linePrefix ++ ch ' ' :: line ++ [ch '\n']

/-- `_write(level, text)` at the clock reading `now`. -/
def write (u : Unicode) (lg : EwtsLogger) (now : Timestamp) (level : Int) (message : Text) :
    List Output :=
  let isStatus : Bool := level = 60
  if !isStatus && level < lg.minLevel then []
  else if lg.bridge then [.bridge lg.ewtsId level message]
  else
    let linePrefix := formatPrefix u now lg.ewtsId level
    match lg.logPath with
    | none => (splitLines message).map fun line => .print (prefixed linePrefix line)
    | some logPath =>
      let path := if isStatus then lg.payloadLogPath.getD logPath else logPath
      (splitLines message).map fun line => .append path (prefixed linePrefix line)

/-- `setLevel(level)`. -/
def EwtsLogger.setLevel (lg : EwtsLogger) (level : Int) : EwtsLogger :=
  { lg with minLevel := level, pyLevel := level }

/-- `set_level_from_env()`. -/
def EwtsLogger.setLevelFromEnv (u : Unicode) (lg : EwtsLogger) (p : Process) : EwtsLogger :=
  lg.setLevel (getLevelForEwtsId u lg.ewtsId p).1

/-- `isEnabledFor(level)`. -/
def EwtsLogger.isEnabledFor (lg : EwtsLogger) (level : Int) : Bool := lg.minLevel ≤ level

/-- `getEffectiveLevel()` of a standard logger with the given own level: the first level
that is set on the way to the root, whose level is `WARNING`. -/
def effectiveLevel (own : Int) (ancestors : List Int) : Int :=
  ((own :: ancestors).find? (· ≠ 0)).getD 30

/-- A record sent through the wrapped logger, down to `EwtsHandler.emit`. -/
def submit (u : Unicode) (lg : EwtsLogger) (ancestors : List Int) (now : Timestamp) (level : Int)
    (message : Text) : List Output :=
  if effectiveLevel lg.pyLevel ancestors ≤ level then
    write u lg now (mapPythonLevelToEwts level) message
  else []

/-- `log(level, msg)` on a formatted message goes straight to the sink. -/
def EwtsLogger.log (u : Unicode) (lg : EwtsLogger) (now : Timestamp) (level : Int)
    (message : Text) : List Output :=
  write u lg now level message

/-- The methods that go through the wrapped logger. -/
inductive Method where
  | debug | perform | info | warning | severe | error | fatal | critical | status

/-- The level at which a method sends its message. -/
def Method.level : Method → Int
  | .debug => 10
  | .perform => 15
  | .info => 20
  | .warning => 30
  | .severe | .error => 40
  | .fatal | .critical => 50
  | .status => 60

/-- A call of a method on a formatted message. -/
def EwtsLogger.call (u : Unicode) (lg : EwtsLogger) (ancestors : List Int) (m : Method)
    (now : Timestamp) (message : Text) : List Output :=
  submit u lg ancestors now m.level message

/-! ## Filters -/

/-- A record reaches the sink exactly when it is a status or passes the threshold. -/
theorem write_ne_nil_iff (u : Unicode) (lg : EwtsLogger) (now : Timestamp) (level : Int)
    (message : Text) : write u lg now level message ≠ [] ↔ level = 60 ∨ lg.minLevel ≤ level := by
  have hlines : ∀ f : Text → Output, (splitLines message).map f ≠ [] :=
    fun f h => splitLines_ne_nil message (List.map_eq_nil_iff.mp h)
  unfold write
  simp only
  split
  · rename_i h
    simp only [Bool.and_eq_true, Bool.not_eq_true', decide_eq_false_iff_not, decide_eq_true_eq] at h
    simp only [ne_eq, not_true_eq_false, false_iff, not_or]
    omega
  · rename_i h
    have hpass : level = 60 ∨ lg.minLevel ≤ level := by
      simp only [Bool.and_eq_true, Bool.not_eq_true', decide_eq_false_iff_not,
        decide_eq_true_eq] at h
      omega
    refine iff_of_true ?_ hpass
    split
    · simp
    · split
      · exact hlines _
      · exact hlines _

/-- A record that passes the filter reaches a standalone sink line by line. -/
theorem write_standalone (u : Unicode) {lg : EwtsLogger} (now : Timestamp) {level : Int}
    (message : Text) (hstandalone : lg.bridge = false) (hpass : level = 60 ∨ lg.minLevel ≤ level) :
    write u lg now level message = (splitLines message).map fun line =>
      match lg.logPath with
      | none => .print (prefixed (formatPrefix u now lg.ewtsId level) line)
      | some logPath =>
        .append (if level = 60 then lg.payloadLogPath.getD logPath else logPath)
          (prefixed (formatPrefix u now lg.ewtsId level) line) := by
  have hfilter : ¬((!decide (level = 60) && decide (level < lg.minLevel)) = true) := by
    rw [Bool.and_eq_true, Bool.not_eq_true', decide_eq_false_iff_not, decide_eq_true_eq]
    omega
  simp only [write, hfilter, hstandalone, Bool.false_eq_true, ite_false]
  cases lg.logPath with
  | none => rfl
  | some logPath => simp only [decide_eq_true_eq]

/-- The two filters that a record passes on its way to the sink. -/
theorem submit_ne_nil_iff (u : Unicode) (lg : EwtsLogger) (ancestors : List Int) (now : Timestamp)
    (level : Int) (message : Text) :
    submit u lg ancestors now level message ≠ [] ↔ effectiveLevel lg.pyLevel ancestors ≤ level ∧
      (mapPythonLevelToEwts level = 60 ∨ lg.minLevel ≤ mapPythonLevelToEwts level) := by
  unfold submit
  split
  · rename_i h
    simp only [write_ne_nil_iff, h, true_and]
  · rename_i h
    simp only [ne_eq, not_true_eq_false, h, false_and]

/-- A logger with a level of its own asks no ancestor. -/
theorem effectiveLevel_of_ne_zero {own : Int} (h : own ≠ 0) (ancestors : List Int) :
    effectiveLevel own ancestors = own := by
  simp [effectiveLevel, h]

/-- The level of a method is an EWTS level. -/
@[simp] theorem Method.map_level (m : Method) : mapPythonLevelToEwts m.level = m.level := by
  cases m <;> rfl

/-- The level that a logger without own level inherits. -/
def inheritedLevel (ancestors : List Int) : Int := effectiveLevel 0 ancestors

end Ewts.Python
