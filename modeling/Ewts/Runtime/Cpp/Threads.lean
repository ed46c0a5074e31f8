import Ewts.Runtime.Cpp.Registry

/-!
# Threads in the C++ runtime

Threads take turns between the points where they read or write shared data. `g_registry_mtx`
guards the map of loggers, `init_mtx_` the first use of a logger and `log_mtx_` its stream.
Nothing guards `g_mpiRank`, nor `std::cout` against other loggers. The environment stays as it is.
-/

namespace Ewts.Cpp

/-- What is inserted into a stream, with the key of the logger that does so. -/
inductive Printed where
  | notice (key : Text) (text : Text)
  | piece (key : Text) (text : Text)

/-- The rank that `init_once` reads: a number that takes up the whole value. -/
def readRank (env : Environ) : Option Int :=
  let r := getenv env (text "EWTS_RANK")
  if r ≠ [] ∧ (strtol r).2 = [] ∧ 0 ≤ (strtol r).1 then some (toInt32 (strtol r).1) else none

/-- The prefix of the notices of a process without a rank. -/
def plainLabel : Text := text "EWTS "

/-- The prefix of the notices of a process with a rank. -/
def rankLabel (mpiRank : Int) : Text :=
  let sign := if mpiRank < 0 then [ch '-'] else []
  text "[rank " ++ sign ++ decimal mpiRank.natAbs ++ text "] EWTS "

/-- What `init_once` inserts into `std::cout`. -/
def notices (env : Environ) (linked : Bool) (label : Text) (lg : Logger) : List Text :=
  let head := label ++ lg.ewtsId
  let own := parseLevel (getenv env (cStr (moduleLoglevelEnv lg.ewtsId)))
  [head ++ text " logging is " ++ (if lg.enabled then text "ENABLED" else text "DISABLED") ++
      [ch '\n'],
    head ++ text " log level from env var " ++ moduleLoglevelEnv lg.ewtsId ++ text " is " ++
      C.levelNamePadded own ++ [ch '\n'],
    head ++ text " log level set to " ++ C.levelNamePadded lg.level ++ [ch '\n']] ++
  if lg.useNgen && isNgenActive env && linked then
    [head ++ text " using ngen for logging" ++ [ch '\n']]
  else [label, lg.ewtsId, text " logging standalone", [ch '\n']]

/-- Where a thread stands. From `use` on it holds a reference to the logger of the key. -/
inductive Position where
  | outside
  /-- `GetLogger` has locked the registry; without a method the call is `EwtsInit`. -/
  | find (key : Text) (ewtsNgen : Bool) (method : Option Method)
  | create (key : Text) (ewtsNgen : Bool) (method : Option Method)
  | unlock (key : Text) (method : Option Method)
  | use (key : Text) (method : Method)
  /-- `init_once` has locked `init_mtx_`. -/
  | check (key : Text) (method : Method)
  /-- It has reset `g_mpiRank`. -/
  | rank (key : Text) (method : Method)
  /-- It tests the sign of `g_mpiRank`. -/
  | head (key : Text) (method : Method)
  /-- It reads `g_mpiRank` once more, to print it. -/
  | named (key : Text) (method : Method)
  | announce (key : Text) (method : Method) (rest : List Text)
  | leave (key : Text) (method : Method)
  /-- `init_once` has returned. -/
  | act (key : Text) (method : Method)
  /-- `Log` has passed the filter. -/
  | route (key : Text) (level : Int) (message : Text)
  /-- It has read the timestamp of the line and waits for the stream. -/
  | waiting (key : Text) (level : Int) (message : Text) (read : Timestamp)
  | opening (key : Text) (level : Int) (message : Text) (read : Timestamp)
  | write (key : Text) (sink : Option Text) (rest : List Text)

/-- A thread: where it stands, its `g_current_logger`, the calls that it still has to make, how
its calls ended. -/
structure Thread where
  position : Position
  current : Option Text
  todo : List Call
  answers : List Answer

/-- What the threads share, and what leaves the process. -/
structure Shared (τ : Type) where
  loggers : Loggers
  registryMutex : Option τ
  initMutex : Text → Option τ
  logMutex : Text → Option τ
  mpiRank : Int
  /-- `std::cout`, and the files by their paths. -/
  out : Option Text → List Printed
  bridged : List (Text × Int × Text)

/-- A process. -/
structure World (τ : Type) where
  shared : Shared τ
  threads : τ → Thread

section Steps

variable {τ : Type} (host : Host)

/-- Insert into a stream. -/
def Shared.print (s : Shared τ) (sink : Option Text) (p : Printed) : Shared τ :=
  { s with out := Function.update s.out sink (s.out sink ++ [p]) }

/-- Write to a logger. -/
def Shared.setLogger (s : Shared τ) (key : Text) (lg : Logger) : Shared τ :=
  { s with loggers := Function.update s.loggers key (some lg) }

/-- A call ends. -/
def Thread.return (θ : Thread) (answer : Answer) : Thread :=
  { θ with position := .outside, answers := θ.answers ++ [answer] }

/-- The next step of a thread, while the clock reads `now`. A thread that waits for a mutex
does nothing, as does one without calls. -/
def Thread.step (s : Shared τ) (t : τ) (now : Timestamp) (θ : Thread) : Shared τ × Thread :=
  match θ.position with
  | .outside =>
    match θ.todo with
    | [] => (s, θ)
    | call :: todo =>
      match call.lookup θ.current, call.method with
      | some (key, ewtsNgen), method =>
        match s.registryMutex with
        | none =>
          ({ s with registryMutex := some t },
            { θ with position := .find key ewtsNgen method, todo := todo })
        | some _ => (s, θ)
      | none, some method =>
        (s, { θ with position := .use (call.key θ.current) method, todo := todo })
      | none, none => (s, θ)
  | .find key ewtsNgen method =>
    (s, { θ with position :=
      match s.loggers key with
      | some _ => .unlock key method
      | none => .create key ewtsNgen method })
  | .create key ewtsNgen method =>
    (s.setLogger key (.new key ewtsNgen), { θ with position := .unlock key method })
  | .unlock key method =>
    ({ s with registryMutex := none },
      match method with
      | none => Thread.return { θ with current := some key } .done
      | some method => { θ with position := .use key method })
  | .use key method =>
    match method with
    | .log _ none => (s, θ.return .done)
    | _ =>
      match s.initMutex key with
      | none =>
        ({ s with initMutex := Function.update s.initMutex key (some t) },
          { θ with position := .check key method })
      | some _ => (s, θ)
  | .check key method =>
    let lg := s.loggers.at key
    if lg.initialized then (s, { θ with position := .leave key method })
    else ({ s.setLogger key (lg.initOnce host.env) with mpiRank := -1 },
      { θ with position := .rank key method })
  | .rank key method =>
    ({ s with mpiRank := (readRank host.env).getD s.mpiRank },
      { θ with position := .head key method })
  | .head key method =>
    if 0 ≤ s.mpiRank then (s, { θ with position := .named key method })
    else
      let rest := notices host.env host.linked plainLabel (s.loggers.at key)
      (s, { θ with position := .announce key method rest })
  | .named key method =>
    let rest := notices host.env host.linked (rankLabel s.mpiRank) (s.loggers.at key)
    (s, { θ with position := .announce key method rest })
  | .announce key method [] => (s, { θ with position := .leave key method })
  | .announce key method (notice :: rest) =>
    (s.print none (.notice key notice), { θ with position := .announce key method rest })
  | .leave key method =>
    ({ s with initMutex := Function.update s.initMutex key none },
      { θ with position := .act key method })
  | .act key method =>
    let lg := s.loggers.at key
    match method with
    | .isLoggingEnabled => (s, θ.return (.enabled lg.enabled))
    | .getLogLevel => (s, θ.return (.level lg.level))
    | .log _ none => (s, θ.return .done)
    | .log level (some message) =>
      if lg.enabled = false ∨ level < lg.level then (s, θ.return .done)
      else (s, { θ with position := .route key level message })
  | .route key level message =>
    let lg := s.loggers.at key
    if lg.useNgen && isNgenActive host.env && host.linked then
      ({ s with bridged := s.bridged ++ [(cStr lg.ewtsId, level, cStr message)] }, θ.return .done)
    else (s, { θ with position := .waiting key level message now })
  | .waiting key level message read =>
    match s.logMutex key with
    | none =>
      ({ s with logMutex := Function.update s.logMutex key (some t) },
        { θ with position := .opening key level message read })
    | some _ => (s, θ)
  | .opening key level message read =>
    match (s.loggers.at key).openStandaloneFile { host with now := now } with
    | none =>
      ({ s with logMutex := Function.update s.logMutex key none }, θ.return .filesystemError)
    | some lg =>
      let rest := linePieces read lg.ewtsIdPadded level message
      (s.setLogger key lg, { θ with position := .write key lg.out rest })
  | .write key _ [] =>
    ({ s with logMutex := Function.update s.logMutex key none }, θ.return .done)
  | .write key sink (piece :: rest) =>
    (s.print sink (.piece key piece), { θ with position := .write key sink rest })

variable [DecidableEq τ]

/-- One step of a process: a thread takes its next step. -/
def World.step (w : World τ) (turn : τ × Timestamp) : World τ :=
  let r := (w.threads turn.1).step host w.shared turn.1 turn.2
  ⟨r.1, Function.update w.threads turn.1 r.2⟩

/-- The process before the first call, with the calls that each thread is going to make. -/
def World.start (programs : τ → List Call) : World τ where
  shared := ⟨fun _ => none, none, fun _ => none, fun _ => none, -1, fun _ => [], []⟩
  threads t := ⟨.outside, none, programs t, []⟩

end Steps

end Ewts.Cpp
