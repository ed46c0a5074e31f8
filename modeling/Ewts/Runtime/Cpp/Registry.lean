import Ewts.Runtime.Cpp.Logger
import Mathlib.Logic.Function.Basic

/-!
# The registry of the C++ runtime

`GetLogger` makes one `Logger` for each key, which keeps the route flag that it was made with.
Each thread has a current logger; before its first `EwtsInit` this is the logger `EWTS`.
-/

namespace Ewts.Cpp

/-- `g_loggers`. -/
abbrev Loggers := Text → Option Logger

/-- `GetLogger` with a key: a logger that is there stays as it is. -/
def Loggers.get (loggers : Loggers) (key : Text) (ewtsNgen : Bool) : Loggers :=
  match loggers key with
  | some _ => loggers
  | none => Function.update loggers key (some (.new key ewtsNgen))

/-- The logger of a key. Its methods are called on loggers that are there. -/
def Loggers.at (loggers : Loggers) (key : Text) : Logger := (loggers key).getD (.new key true)

/-- The methods of a logger; a null format, or one that cannot be formatted, logs nothing. -/
inductive Method where
  | log (level : Int) (message : Option Text)
  | isLoggingEnabled
  | getLogLevel

/-- The calls of the interface: `EwtsInit(ewts_id, ewts_ngen)`, a method of `CurrentLogger()`, a
method of `GetLogger(ewts_id, ewts_ngen)`. -/
inductive Call where
  | ewtsInit (ewtsId : Text) (ewtsNgen : Bool)
  | current (method : Method)
  | of (ewtsId : Text) (ewtsNgen : Bool) (method : Method)

/-- How a call ends. -/
inductive Answer where
  | done
  | enabled (enabled : Bool)
  | level (level : Int)
  /-- The exception of `create_directories`. -/
  | filesystemError

namespace Call

/-- The key and the flag that the call hands to `GetLogger`, where `g_current_logger` has a key. -/
def lookup (current : Option Text) : Call → Option (Text × Bool)
  | ewtsInit ewtsId ewtsNgen | of ewtsId ewtsNgen _ => some (loggerKey ewtsId, ewtsNgen)
  | .current _ =>
    match current with
    | some _ => none
    | none => some (loggerKey (text "EWTS"), true)

/-- The key of the logger that the call is about. -/
def key (current : Option Text) : Call → Text
  | ewtsInit ewtsId _ | of ewtsId _ _ => loggerKey ewtsId
  | .current _ => current.getD (loggerKey (text "EWTS"))

/-- The method that is called; `EwtsInit` calls none. -/
def method : Call → Option Method
  | ewtsInit _ _ => none
  | .current method | of _ _ method => some method

/-- `g_current_logger` after the call. -/
def next (current : Option Text) : Call → Option Text
  | ewtsInit ewtsId _ => some (loggerKey ewtsId)
  | _ => current

end Call

/-- The parts of calls: `GetLogger`, to make a logger the current one, a method of a logger. -/
inductive Request where
  | getLogger (key : Text) (ewtsNgen : Bool)
  | select (key : Text)
  | method (key : Text) (method : Method)

/-- What a call does with its logger. -/
def Request.of (key : Text) : Option Method → Request
  | none => .select key
  | some m => .method key m

/-- The parts of a call. -/
def Call.requests (current : Option Text) (call : Call) : List Request :=
  ((call.lookup current).toList.map fun l => .getLogger l.1 l.2) ++
    [.of (call.key current) call.method]

/-- The parts of the calls of a thread, each with the current logger that the calls before it
have left. -/
def requests : Option Text → List Call → List Request
  | _, [] => []
  | current, call :: todo => call.requests current ++ requests (call.next current) todo

/-- What `Log(level, message)` inserts into its stream, one after the other. -/
def linePieces (now : Timestamp) (padded : Text) (level : Int) (message : Text) : List Text :=
  [now.iso, [ch ' '], padded, [ch ' '], C.levelNamePadded level, [ch ' '], message, [ch '\n']]

/-- `Log(level, message)`, where the clock has another time once the file is opened. -/
def Logger.logAt (host : Host) (opened : Timestamp) (lg : Logger) (level : Int) (message : Text) :
    Option Output × Logger :=
  let lg := lg.initOnce host.env
  if lg.enabled = false ∨ level < lg.level then (none, lg)
  else if lg.useNgen && isNgenActive host.env && host.linked then
    (some (.bridge (cStr lg.ewtsId) level (cStr message)), lg)
  else
    match lg.openStandaloneFile { host with now := opened } with
    | none => (some .filesystemError, lg)
    | some lg =>
      (some (.standalone lg.out (linePieces host.now lg.ewtsIdPadded level message).flatten), lg)

/-- What a call that is not interrupted reads. -/
theorem Logger.logAt_self (host : Host) (lg : Logger) (level : Int) (message : Text) :
    lg.logAt host host.now level message = lg.log host level message := by
  have hline (padded : Text) : (linePieces host.now padded level message).flatten =
      host.now.iso ++ ch ' ' :: padded ++ ch ' ' :: C.levelNamePadded level ++
        ch ' ' :: message ++ [ch '\n'] := by
    simp [linePieces]
  simp only [logAt, hline]
  rfl

/-- How `Log` ends. -/
def Output.answer : Option Output → Answer
  | some .filesystemError => .filesystemError
  | _ => .done

/-- A method: what it leads to, how it ends and the logger afterwards. -/
def Method.run (host : Host) (opened : Timestamp) (lg : Logger) :
    Method → Option Output × Answer × Logger
  | log _ none => (none, .done, lg)
  | log level (some message) =>
    let r := lg.logAt host opened level message
    (r.1, Output.answer r.1, r.2)
  | isLoggingEnabled => (none, .enabled (lg.initOnce host.env).enabled, lg.initOnce host.env)
  | getLogLevel => (none, .level (lg.initOnce host.env).level, lg.initOnce host.env)

/-! ## One request at a time -/

/-- What the requests of threads leave. -/
structure Serial (τ : Type) where
  loggers : Loggers
  /-- What each logger has written to a file, or to `std::cout`. -/
  out : Text → Option Text → Text
  /-- The calls of `ewts_ngen_log`. -/
  bridged : List (Text × Int × Text)
  answers : τ → List Answer

/-- No request was made. -/
def Serial.start {τ : Type} : Serial τ where
  loggers _ := none
  out _ _ := []
  bridged := []
  answers _ := []

/-- A request of a thread, with the times that it reads on its way. -/
structure Event (τ : Type) where
  thread : τ
  request : Request
  read : Timestamp
  opened : Timestamp

section Serial

variable {τ : Type} [DecidableEq τ] (host : Host)

/-- What a message leads to is handed on. -/
def Serial.deliver (s : Serial τ) (key : Text) : Option Output → Serial τ
  | some (.bridge ewtsId level message) =>
    { s with bridged := s.bridged ++ [(ewtsId, level, message)] }
  | some (.standalone sink line) =>
    let written := Function.update (s.out key) sink (s.out key sink ++ line)
    { s with out := Function.update s.out key written }
  | _ => s

/-- A call returns to its thread. -/
def Serial.answer (s : Serial τ) (t : τ) (answer : Answer) : Serial τ :=
  { s with answers := Function.update s.answers t (s.answers t ++ [answer]) }

/-- One request from its beginning to its end. -/
def Serial.step (s : Serial τ) (e : Event τ) : Serial τ :=
  match e.request with
  | .getLogger key ewtsNgen => { s with loggers := s.loggers.get key ewtsNgen }
  | .select _ => s.answer e.thread .done
  | .method key method =>
    let r := method.run { host with now := e.read } e.opened (s.loggers.at key)
    let s := { s with loggers := Function.update s.loggers key (some r.2.2) }
    (s.deliver key r.1).answer e.thread r.2.1

end Serial

end Ewts.Cpp
