import Ewts.Core.CString
import Ewts.Core.Environ

/-!
# Levels of the ngen logger

The level type of the C++ logger, the conversions from configuration values and
environment values, and the fixed-width fields of a line.
-/

namespace Ewts.Ngen

/-- `enum class LogLevel`. -/
inductive LogLevel where
  | NOTSET | DEBUG | PERFORM | INFO | WARNING | SEVERE | FATAL | STATUS
  deriving DecidableEq, Repr, Inhabited

/-- The underlying number of an enumerator. -/
def LogLevel.value : LogLevel → Nat
  | NOTSET => 0
  | DEBUG => 10
  | PERFORM => 15
  | INFO => 20
  | WARNING => 30
  | SEVERE => 40
  | FATAL => 50
  | STATUS => 60

/-- `ClampCanonicalLevel(v)`. -/
def clampCanonicalLevel (v : Int) : LogLevel :=
  if v ≤ 0 then .NOTSET
  else if v ≤ 10 then .DEBUG
  else if v ≤ 15 then .PERFORM
  else if v ≤ 20 then .INFO
  else if v ≤ 30 then .WARNING
  else if v ≤ 40 then .SEVERE
  else if v ≤ 50 then .FATAL
  else .STATUS

/-- `ToLower(s)`. -/
def toLower (s : Text) : Text := s.map CodePoint.toLower

/-- `ToUpper(s)`. -/
def toUpper (s : Text) : Text := s.map CodePoint.toUpper

/-- `ParseLevel(value)`. -/
def parseLevel (value : Text) : LogLevel :=
  let v := toLower (trim value)
  if v = text "debug" then .DEBUG
  else if v = text "performance" ∨ v = text "perform" then .PERFORM
  else if v = text "info" then .INFO
  else if v = text "warning" ∨ v = text "warn" then .WARNING
  else if v = text "error" ∨ v = text "severe" then .SEVERE
  else if v = text "fatal" ∨ v = text "critical" then .FATAL
  else if v = text "status" then .STATUS
  else if v = text "notset" ∨ v = text "none" then .NOTSET
  else if isDigitString v then clampCanonicalLevel (atoi v)
  else .INFO

/-- The level of a trimmed value: digits are clamped, anything else is a name. -/
def levelOfValue (raw : Text) : LogLevel :=
  if isDigitString raw then clampCanonicalLevel (atoi raw) else parseLevel raw

/-- `get_default_log_level()`. -/
def getDefaultLogLevel (env : Environ) : LogLevel :=
  if getenv env (text "EWTS_LOG_LEVEL") = [] then .INFO
  else levelOfValue (trim (getenv env (text "EWTS_LOG_LEVEL")))

/-- `ewts::LogLevelName(level)`: numbers off the table read as `INFO`. -/
def logLevelName (level : Int) : Text :=
  if level = 0 then text "NOTSET"
  else if level = 10 then text "DEBUG"
  else if level = 15 then text "PERFORM"
  else if level = 20 then text "INFO"
  else if level = 30 then text "WARNING"
  else if level = 40 then text "SEVERE"
  else if level = 50 then text "FATAL"
  else if level = 60 then text "STATUS"
  else text "INFO"

/-- Cut or fill with blanks to a width. -/
def fixedWidth (width : Nat) (s : Text) : Text :=
  s.take width ++ List.replicate (width - s.length) (ch ' ')

/-- `LevelToFixedString(level)`. -/
def levelToFixedString (level : Int) : Text := fixedWidth 7 (logLevelName level)

/-- `PadEwtsId(id)`. -/
def padEwtsId (id : Text) : Text := fixedWidth 8 (toUpper id)

end Ewts.Ngen
