import Ewts.Correctness.NativeRegistry
import Mathlib.Logic.Function.Basic

/-!
# Threads in the C runtime

Threads that share the runtime take turns between the points where it reads or writes shared
data. `g_registry_mutex` guards the list of states, `g_write_mutex` the files; the filter,
the route and the bridge are outside both. The environment stays as it is.
-/

namespace Ewts.C

/-- What a call returns. -/
inductive Answer where
  | done
  | level (level : Int)
  | enabled (enabled : Bool)

/-- What is printed to a stream: a notice of `init_logger_state`, or a line of a message. -/
inductive Printed where
  | notice (notice : Text)
  | line (line : Text)

namespace Call

/-- The key that the call looks up. -/
def key (call : Call) : Text := loggerKey call.ewtsId

/-- The level and the message of a call that logs; a null format logs nothing. -/
def message : Call → Option (Int × Text)
  | ewtsLogModule _ level msg => msg.map (level, ·)
  | log level msg => msg.map (level, ·)
  | _ => none

/-- What the call reads from its state and returns. -/
def answer (st : LoggerState) : Call → Answer
  | ewtsGetLogLevelModule _ => .level st.level
  | ewtsIsLoggingEnabledModule _ => .enabled st.enabled
  | _ => .done

end Call

/-- `g_mpiRank`: here an empty variable differs from one that is not set. -/
def mpiRank (env : Environ) : Int :=
  match env (text "EWTS_RANK") with
  | some v => atoi (cStr v)
  | none => -1

/-- What `init_logger_state(st)` prints on `stdout`. -/
def notices (env : Environ) (linked : Bool) (st : LoggerState) : List Text :=
  let head := (if 0 ≤ mpiRank env then
      text "[rank " ++ decimal (mpiRank env).toNat ++ text "] EWTS" else text "EWTS") ++
    ch ' ' :: st.ewtsId
  let key := buildModuleLoglevelEnv st.ewtsId
  let own := parseLevel (getenv env key)
  [head ++ text " logging is " ++ if st.enabled then text "ENABLED" else text "DISABLED",
    head ++ text " log level from env var " ++ key ++ text " is " ++ levelNamePadded own,
    if own ≠ 0 then head ++ text " log level set to " ++ levelNamePadded st.level
    else head ++ text " using default log level = " ++ levelNamePadded st.level,
    if st.useNgen && isNgenActive env && linked then head ++ text " using ngen for logging"
    else head ++ text " logging standalone"]

/-- The state of a key. A thread only looks for keys of states that it was handed. -/
def stateOf (loggers : List LoggerState) (key : Text) : LoggerState :=
  (loggers.find? fun st => st.ewtsId = key).getD (.alloc key false)

/-- Where a thread stands, with what the frames of its call hold. The key of a call stands for
the pointer that `get_logger_state` returned to it. -/
inductive Position where
  | outside
  /-- `get_logger_state` has locked the registry; the ids are those it still has to compare. -/
  | search (call : Call) (rest : List Text)
  /-- The loop has found the state. -/
  | found (call : Call)
  /-- The loop has come to the end of the list. -/
  | create (call : Call)
  | initialise (call : Call)
  /-- `init_logger_state` prints. -/
  | announce (call : Call) (rest : List Text)
  | unlock (call : Call)
  /-- `get_logger_state` has returned. -/
  | act (call : Call)
  /-- `v_log_with_state` has passed the filter. -/
  | route (call : Call) (level : Int) (msg : Text)
  /-- It has read the timestamp of the lines and waits for the files. -/
  | waiting (call : Call) (level : Int) (msg : Text) (read : Timestamp)
  | opening (call : Call) (level : Int) (msg : Text) (read : Timestamp)
  /-- It prints to its file. -/
  | write (sink : Sink) (rest : List Text)

/-- A thread: where it stands, the calls that it still has to make, what its calls returned. -/
structure Thread where
  position : Position
  todo : List Call
  answers : List Answer

/-- What the threads share, and what leaves the process. -/
structure Shared (τ : Type) where
  loggers : List LoggerState
  registryMutex : Option τ
  writeMutex : Option τ
  out : Sink → List Printed
  /-- The calls of `ewts_ngen_log`. -/
  bridged : List (Text × Int × Text)

/-- A process. -/
structure World (τ : Type) where
  shared : Shared τ
  threads : τ → Thread

section Steps

variable {τ : Type} (env : Environ) (linked : Bool) (opens : Text → Bool)

instance : DecidableEq Sink := fun
  | .stdout, .stdout => isTrue rfl
  | .file p, .file q => decidable_of_iff (p = q) (by simp)
  | .stdout, .file _ => isFalse (by simp)
  | .file _, .stdout => isFalse (by simp)

/-- Print to a stream. -/
def Shared.print (s : Shared τ) (sink : Sink) (p : Printed) : Shared τ :=
  { s with out := Function.update s.out sink (s.out sink ++ [p]) }

/-- A call returns. -/
def Thread.return (θ : Thread) (answer : Answer) : Thread :=
  { θ with position := .outside, answers := θ.answers ++ [answer] }

/-- The next step of a thread, while the clock reads `now`. A thread that waits for a mutex
does nothing, as does one without calls. -/
def Thread.step (s : Shared τ) (t : τ) (now : Timestamp) (θ : Thread) : Shared τ × Thread :=
  match θ.position with
  | .outside =>
    match θ.todo, s.registryMutex with
    | call :: todo, none =>
      ({ s with registryMutex := some t },
        { θ with position := .search call (ids s.loggers), todo := todo })
    | _, _ => (s, θ)
  | .search call [] => (s, { θ with position := .create call })
  | .search call (id :: rest) =>
    (s, { θ with position := if id = call.key then .found call else .search call rest })
  | .found call =>
    let st := stateOf s.loggers call.key
    ({ s with
        loggers := storeState { st with useNgen := st.useNgen || call.ewtsNgen } s.loggers },
      { θ with position := if st.initialized then .unlock call else .initialise call })
  | .create call =>
    ({ s with loggers := .alloc call.key call.ewtsNgen :: s.loggers },
      { θ with position := .initialise call })
  | .initialise call =>
    let st := initLoggerState env (stateOf s.loggers call.key)
    ({ s with loggers := storeState st s.loggers },
      { θ with position := .announce call (notices env linked st) })
  | .announce call [] => (s, { θ with position := .unlock call })
  | .announce call (notice :: rest) =>
    (s.print .stdout (.notice notice), { θ with position := .announce call rest })
  | .unlock call => ({ s with registryMutex := none }, { θ with position := .act call })
  | .act call =>
    let st := stateOf s.loggers call.key
    match call.message with
    | none => (s, θ.return (call.answer st))
    | some (level, msg) =>
      if st.enabled = false ∨ level < st.level then (s, θ.return .done)
      else (s, { θ with position := .route call level msg })
  | .route call level msg =>
    let st := stateOf s.loggers call.key
    if st.useNgen && isNgenActive env && linked then
      ({ s with bridged := s.bridged ++ [(st.ewtsId, level, msg)] }, θ.return .done)
    else (s, { θ with position := .waiting call level msg now })
  | .waiting call level msg read =>
    match s.writeMutex with
    | none => ({ s with writeMutex := some t }, { θ with position := .opening call level msg read })
    | some _ => (s, θ)
  | .opening call level msg read =>
    let st := openStandaloneFile env opens now (stateOf s.loggers call.key)
    ({ s with loggers := storeState st s.loggers },
      { θ with position :=
          .write (st.file.getD .stdout) (standaloneLines read st.ewtsIdPadded level msg) })
  | .write _ [] => ({ s with writeMutex := none }, θ.return .done)
  | .write sink (line :: rest) =>
    (s.print sink (.line line), { θ with position := .write sink rest })

variable [DecidableEq τ]

/-- One step of a process: a thread takes its next step. -/
def World.step (w : World τ) (turn : τ × Timestamp) : World τ :=
  let r := (w.threads turn.1).step env linked opens w.shared turn.1 turn.2
  ⟨r.1, Function.update w.threads turn.1 r.2⟩

/-- The process before the first call, with the calls that each thread is going to make. -/
def World.start (programs : τ → List Call) : World τ where
  shared := ⟨[], none, none, fun _ => [], []⟩
  threads t := ⟨.outside, programs t, []⟩

end Steps

/-! ## One call at a time -/

/-- A call of a thread as one operation, with what it reads on its way: the route that
`v_log_with_state` takes, the clock for the lines and for the name of the file. -/
structure Operation (τ : Type) where
  thread : τ
  call : Call
  route : Bool
  read : Timestamp
  opened : Timestamp

/-- What a process without interleaving has done. -/
structure Serial (τ : Type) where
  loggers : List LoggerState
  out : Sink → List Text
  bridged : List (Text × Int × Text)
  answers : τ → List Answer

/-- `v_log_with_state(st, level, fmt, ap)` with what it reads on its way. -/
def vLogAt (env : Environ) (opens : Text → Bool) (route : Bool) (read opened : Timestamp)
    (st : LoggerState) (level : Int) (msg : Text) : Option Output × LoggerState :=
  if st.enabled = false ∨ level < st.level then (none, st)
  else if route then (some (.bridge st.ewtsId level msg), st)
  else
    let st := openStandaloneFile env opens opened st
    (some (.standalone st.file (standaloneLines read st.ewtsIdPadded level msg)), st)

/-- What a call that is not interrupted reads. -/
theorem vLogAt_self (env : Environ) (linked : Bool) (opens : Text → Bool) (now : Timestamp)
    (st : LoggerState) (level : Int) (msg : Text) :
    vLogAt env opens (st.useNgen && isNgenActive env && linked) now now st level msg =
      vLogWithState env linked opens now st level msg :=
  rfl

section Serial

variable {τ : Type} [DecidableEq τ] (env : Environ) (opens : Text → Bool)

/-- What a message leads to is handed on. -/
def Serial.deliver (s : Serial τ) : Option Output → Serial τ
  | none => s
  | some (.bridge ewtsId level msg) => { s with bridged := s.bridged ++ [(ewtsId, level, msg)] }
  | some (.standalone file lines) =>
    let sink := file.getD .stdout
    { s with out := Function.update s.out sink (s.out sink ++ lines) }

/-- One call from its beginning to its end. -/
def Serial.step (s : Serial τ) (op : Operation τ) : Serial τ :=
  let r := getLoggerState env s.loggers op.call.ewtsId op.call.ewtsNgen
  let s := { s with
    loggers := r.2
    answers := Function.update s.answers op.thread (s.answers op.thread ++ [op.call.answer r.1]) }
  match op.call.message with
  | none => s
  | some (level, msg) =>
    let q := vLogAt env opens op.route op.read op.opened r.1 level msg
    Serial.deliver { s with loggers := storeState q.2 r.2 } q.1

/-- Nothing has been called. -/
def Serial.start : Serial τ := ⟨[], fun _ => [], [], fun _ => []⟩

end Serial

end Ewts.C
