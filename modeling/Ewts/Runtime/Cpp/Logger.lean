import Ewts.Runtime.C.Logger

/-!
# The logger of the C++ runtime

A `Logger` reads its level from the environment at the first use. Its standalone sink is a
file below `EWTS_LOG_DIR`, or `std::cout` while no file is open.
-/

namespace Ewts.Cpp

/-- The characters `" \t\r\n"`. -/
def isBlank (c : CodePoint) : Bool :=
  c = ch ' ' || c = ch '\t' || c = ch '\r' || c = ch '\n'

/-- From `find_first_not_of(" \t\r\n")` to `find_last_not_of(" \t\r\n")`. -/
def trimBlank (s : Text) : Text := (s.dropWhile isBlank).rdropWhile isBlank

/-- `trim_upper(s)`. -/
def trimUpper (s : Text) : Text := C.toupperAll (trimBlank s)

/-- `parse_enabled(v)`. -/
def parseEnabled (v : Text) : Bool :=
  trimUpper v = [] ||
    !([text "0", text "FALSE", text "NO", text "OFF", text "DISABLED"].contains (trimUpper v))

/-- The level names that `parse_level` compares with, in order. -/
def levelNames : List (Text × Int) :=
  [("DEBUG", 10), ("PERFORM", 15), ("INFO", 20), ("WARN", 30), ("WARNING", 30), ("ERROR", 40),
    ("SEVERE", 40), ("FATAL", 50), ("CRITICAL", 50), ("STATUS", 60)].map fun e => (text e.1, e.2)

/-- `parse_level(v)`: a number that takes up the whole value, then the names. -/
def parseLevel (v : Text) : Int :=
  let s := trimBlank v
  if s = [] then 0
  else if (strtol s).2 = [] ∧ 0 ≤ (strtol s).1 then toInt32 (strtol s).1
  else (levelNames.lookup (trimUpper s)).getD 0

/-- The key of `GetLogger(ewts_id, ..)`; without an id it is `EWTS`. -/
def loggerKey (ewtsId : Text) : Text := trimUpper (if ewtsId = [] then text "EWTS" else ewtsId)

/-- `class Logger`. -/
structure Logger where
  ewtsId : Text
  ewtsIdPadded : Text
  useNgen : Bool
  initialized : Bool
  enabled : Bool
  level : Int
  /-- The path of the open standalone file. -/
  out : Option Text

/-- What a call meets outside the library. -/
structure Host where
  env : Environ
  now : Timestamp
  /-- Whether `dlsym` finds `ewts_ngen_log`. -/
  linked : Bool
  /-- Whether `create_directories` succeeds; it throws otherwise. -/
  creates : Text → Bool
  /-- Whether a file can be opened for appending. -/
  opens : Text → Bool

/-- `is_ngen_active()`. -/
def isNgenActive (env : Environ) : Bool := getenv env (text "NGEN_RESULTS_DIR") ≠ []

/-- `Logger(ewts_id, ewts_ngen)`. -/
def Logger.new (ewtsId : Text) (ewtsNgen : Bool) : Logger where
  ewtsId := trimUpper ewtsId
  ewtsIdPadded := []
  useNgen := ewtsNgen
  initialized := false
  enabled := true
  level := 20
  out := none

/-- `module_loglevel_env()`. -/
def moduleLoglevelEnv (ewtsId : Text) : Text := ewtsId ++ text "_LOGLEVEL"

/-- `pad_id()`. -/
def padId (ewtsId : Text) : Text :=
  if 8 ≤ ewtsId.length then ewtsId.take 8
  else ewtsId ++ List.replicate (8 - ewtsId.length) (ch ' ')

/-- The level that `init_once` finds: of the module, of the process, `INFO`. -/
def initialLevel (env : Environ) (ewtsId : Text) : Int :=
  let own := parseLevel (getenv env (cStr (moduleLoglevelEnv ewtsId)))
  let fallback := parseLevel (getenv env (text "EWTS_LOG_LEVEL"))
  if own ≠ 0 then own else if fallback ≠ 0 then fallback else 20

/-- `init_once()`. -/
def Logger.initOnce (env : Environ) (lg : Logger) : Logger :=
  if lg.initialized then lg
  else
    { lg with
      initialized := true
      ewtsIdPadded := padId lg.ewtsId
      enabled := parseEnabled (getenv env (text "EWTS_ENABLED"))
      level := initialLevel env lg.ewtsId }

/-- `open_standalone_file()`; it is `none` when `create_directories` throws. -/
def Logger.openStandaloneFile (host : Host) (lg : Logger) : Option Logger :=
  match lg.out with
  | some _ => some lg
  | none =>
    let dir := getenv host.env (text "EWTS_LOG_DIR")
    if dir = [] then some lg
    else if !host.creates dir then none
    else
      let path := cStr (dir ++ ch '/' :: lg.ewtsId ++ ch '_' :: host.now.compact ++ text ".log")
      some { lg with out := if host.opens path then some path else none }

/-- What a message leads to. -/
inductive Output where
  /-- A call of `ewts_ngen_log`. -/
  | bridge (ewtsId : Text) (level : Int) (message : Text)
  /-- A line for the open file, or for `std::cout`. -/
  | standalone (out : Option Text) (line : Text)
  /-- The exception of `create_directories`. -/
  | filesystemError

/-- `Log(level, message)`. -/
def Logger.log (host : Host) (lg : Logger) (level : Int) (message : Text) :
    Option Output × Logger :=
  let lg := lg.initOnce host.env
  if lg.enabled = false ∨ level < lg.level then (none, lg)
  else if lg.useNgen && isNgenActive host.env && host.linked then
    (some (.bridge (cStr lg.ewtsId) level (cStr message)), lg)
  else
    match lg.openStandaloneFile host with
    | none => (some .filesystemError, lg)
    | some lg =>
      let line := host.now.iso ++ ch ' ' :: lg.ewtsIdPadded ++ ch ' ' :: C.levelNamePadded level ++
        ch ' ' :: message ++ [ch '\n']
      (some (.standalone lg.out line), lg)

/-- A message is passed on exactly when the logger is enabled and its level is reached. -/
theorem Logger.log_ne_none_iff {host : Host} {lg : Logger} {level : Int} {message : Text} :
    (lg.log host level message).1 ≠ none ↔
      (lg.initOnce host.env).enabled = true ∧ (lg.initOnce host.env).level ≤ level := by
  unfold Logger.log
  simp only
  split
  · rename_i h
    refine iff_of_false (not_not.mpr rfl) ?_
    rintro ⟨hon, hle⟩
    rcases h with h | h
    · rw [hon] at h
      cases h
    · omega
  · rename_i h
    refine iff_of_true ?_ ?_
    · split
      · simp
      · split <;> simp
    · rw [not_or, Bool.not_eq_false] at h
      exact ⟨h.1, Int.not_lt.mp h.2⟩

/-- A logger reads the environment once. -/
theorem Logger.initOnce_initOnce (env env' : Environ) (lg : Logger) :
    (lg.initOnce env).initOnce env' = lg.initOnce env := by
  unfold Logger.initOnce
  split <;> rfl

end Ewts.Cpp
