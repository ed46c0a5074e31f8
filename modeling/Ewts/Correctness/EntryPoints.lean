import Ewts.Correctness.PayloadSink

/-!
# The ways into the ngen logger

Four overloads of `Log` and the bridge end in `Log(id, level, text)`. Some of them filter a
message before, by the level of its id or by the level that initialisation cached. The cached
level is the one of the id `NGEN`, and no level is above `STATUS`, so that nothing is dropped
that would not be dropped later.
-/

namespace Ewts.Ngen

variable {F : Type} (fl : Floats F)

/-! ## Outcomes -/

/-- What becomes of a message. -/
inductive Outcome where
  | dropped
  /-- `LogPayload` gets the id and the text. -/
  | payload (ewtsId message : Text)
  /-- Standard lines with the id and the level. -/
  | lines (ewtsId : Text) (level : Int)
  deriving DecidableEq

/-- What `Log(id, level, text)` decides. -/
def Logger.outcome (lg : Logger) (c : Call) : Outcome :=
  if lg.loggingEnabled = false then .dropped
  else if c.messageLevel = LogLevel.STATUS.value then .payload c.moduleName c.message
  else if lg.passes c then .lines c.moduleName c.messageLevel
  else .dropped

/-- The decision of an overload with a format, which compares with `threshold` first. -/
def Logger.formatOutcome (lg : Logger) (expand : Text → Option Text) (threshold : LogLevel)
    (c : Call) : Outcome :=
  if lg.loggingEnabled = false then .dropped
  else if c.messageLevel < threshold.value then .dropped
  else match vsnprintf expand (cStr c.message) with
    | none => .dropped
    | some buf => lg.outcome { c with message := buf }

/-- The other entry points. -/
inductive Entry where
  /-- `Log(id, level, format)`. -/
  | format (ewtsId : Text)
  /-- `ewts_ngen_log(id, level, text)`. -/
  | bridge (ewtsId : Text)
  /-- `Log(text, level)`. -/
  | message
  /-- `Log(level, text)`. -/
  | levelMessage
  /-- `Log(level, format)`. -/
  | levelFormat

/-- The id under which an entry point is meant to log. -/
def Entry.ewtsId : Entry → Text
  | .format ewtsId | .bridge ewtsId => ewtsId
  | _ => text "NGEN"

/-- What an entry point decides. -/
def Entry.outcome (e : Entry) (lg : Logger) (expand : Text → Option Text) (level : Int)
    (message : Text) (clock : Clock) : Outcome :=
  match e with
  | .format ewtsId =>
    lg.formatOutcome expand (lg.effectiveLevel ewtsId) ⟨ewtsId, level, message, clock⟩
  | .bridge ewtsId =>
    if level = LogLevel.STATUS.value then .payload ewtsId message
    else lg.outcome ⟨ewtsId, level, message, clock⟩
  | .levelFormat => lg.formatOutcome expand lg.logLevel ⟨lg.ewtsId, level, message, clock⟩
  | _ => lg.outcome ⟨lg.ewtsId, level, message, clock⟩

/-- A call of an entry point. -/
def Entry.run (e : Entry) (p : Process) (os : Os) (order : HashOrder) (reader : Json.TreeReader)
    (expand : Text → Option Text) (level : Int) (message : Text) (clock : Clock) : Process :=
  match e with
  | .format ewtsId => p.logFormat fl os order reader expand clock ewtsId level (some message)
  | .bridge ewtsId => p.ewtsNgenLog fl os order reader clock (some ewtsId) level (some message)
  | .message => p.logMessage fl os order reader clock message level
  | .levelMessage => p.logLevelMessage fl os order reader clock level message
  | .levelFormat => p.logLevelFormat fl os order reader expand clock level (some message)

/-- What follows from a decision about a call. -/
def Process.carryOut (p : Process) (os : Os) (order : HashOrder) (reader : Json.TreeReader)
    (c : Call) : Outcome → Process
  | .dropped => p
  | .payload ewtsId message => p.logPayloadJson fl os order reader c.clock ewtsId (some message)
  | .lines ewtsId level => p.emit os ⟨ewtsId, level, c.message, c.clock⟩

/-! ## Reached states -/

/-- The states of a process after its initialisation: after any calls, while other code
changes the environment. -/
inductive Process.Reached : Process → Prop where
  | init (os : Os) (order : HashOrder) (stamp : Timestamp) (env : Environ)
      (files : Text → Option Text) : Reached (afterInit os order stamp env files)
  | event (p : Process) (order : HashOrder) (reader : Json.TreeReader) (e : Os × Event F)
      (h : Reached p) : Reached (p.next fl order reader e)
  | entry (p : Process) (e : Entry) (os : Os) (order : HashOrder) (reader : Json.TreeReader)
      (expand : Text → Option Text) (level : Int) (message : Text) (clock : Clock)
      (h : Reached p) : Reached (e.run fl p os order reader expand level message clock)

/-- What initialisation establishes and no call changes. -/
structure Process.Settled (p : Process) : Prop where
  initialized : p.initialized = true
  ewtsId : p.logger.ewtsId = text "NGEN"
  /-- The cached level is the one of ngen itself. -/
  cached : p.logger.effectiveLevel (text "NGEN") = p.logger.logLevel
  /-- Without logging no payload file is opened. -/
  closed : p.logger.loggingEnabled = false → p.logger.payloadFile = none

/-- The fields that decide about a message. -/
def Logger.SamePolicy (lg lg' : Logger) : Prop :=
  lg'.loggingEnabled = lg.loggingEnabled ∧ lg'.ewtsId = lg.ewtsId ∧ lg'.logLevel = lg.logLevel ∧
    lg'.moduleLogLevels = lg.moduleLogLevels

theorem Logger.SamePolicy.effectiveLevel {lg lg' : Logger} (h : lg.SamePolicy lg') :
    lg'.effectiveLevel = lg.effectiveLevel := by
  obtain ⟨_, hid, hlevel, hlevels⟩ := h
  funext moduleName
  unfold Logger.effectiveLevel
  rw [hid, hlevel, hlevels]

/-- A cached level that the map has under the key of ngen is the level of its id. -/
theorem Logger.effectiveLevel_ngen {lg : Logger}
    (h : lg.moduleLogLevels.lookup moduleKey = some lg.logLevel) :
    lg.effectiveLevel (text "NGEN") = lg.logLevel := by
  have hkey : moduleKey ≠ [] := by decide
  rw [Logger.effectiveLevel, firstEntry_moduleKey, Option.bind_some, if_neg hkey, h]

/-- Initialisation puts the cached level into the map, whether it loads a configuration or
not. -/
theorem policyOf_settled (os : Os) (order : HashOrder) (env : Environ) :
    (policyOf os order .fresh env).ewtsId = text "NGEN" ∧
      (policyOf os order .fresh env).effectiveLevel (text "NGEN") =
        (policyOf os order .fresh env).logLevel ∧
      (policyOf os order .fresh env).payloadFile = none := by
  cases hload : configOf os (resultsDir env) with
  | none =>
    rw [policyOf_default os order env hload]
    refine ⟨rfl, Logger.effectiveLevel_ngen ?_, rfl⟩
    rw [Logger.useDefaults, AList.lookup_insert]
  | some tree =>
    rw [policyOf_loaded os order env hload]
    refine ⟨rfl, Logger.effectiveLevel_ngen ?_, rfl⟩
    have hlookup := lookup_load .fresh (envAtRead os order .fresh env)
      (rfl : tree.modules.getD [] = _) rfl moduleKey
    rw [if_pos rfl] at hlookup
    -- The level is cached from the map that was filled.
    obtain ⟨level, hlevel⟩ : ∃ level, (Logger.fresh.load (envAtRead os order .fresh env)
        tree).moduleLogLevels.lookup moduleKey = some level := by
      rw [hlookup]
      cases configured (tree.modules.getD []) moduleKey with
      | none => exact ⟨_, rfl⟩
      | some level => exact ⟨level, rfl⟩
    have hcached : (Logger.fresh.load (envAtRead os order .fresh env) tree).logLevel =
        ((Logger.fresh.load (envAtRead os order .fresh env) tree).moduleLogLevels.lookup
          moduleKey).getD (getDefaultLogLevel (envAtRead os order .fresh env)) := rfl
    rw [hcached, hlevel, Option.getD_some]

theorem settled_afterInit (os : Os) (order : HashOrder) (stamp : Timestamp) (env : Environ)
    (files : Text → Option Text) : (afterInit os order stamp env files).Settled := by
  obtain ⟨hid, hcached, hclosed⟩ := policyOf_settled os order env
  rw [afterInit_eq, Process.setupLogFile]
  split <;> exact ⟨rfl, hid, hcached, fun _ => hclosed⟩

section Settled

variable {p : Process} (h : p.Settled)
include h

/-- A call that leaves the policy alone keeps the process settled. -/
theorem Process.Settled.of_same {q : Process} (hinit : q.initialized = p.initialized)
    (hpolicy : p.logger.SamePolicy q.logger)
    (hclosed : q.logger.loggingEnabled = false → q.logger.payloadFile = none) : q.Settled where
  initialized := hinit.trans h.initialized
  ewtsId := hpolicy.2.1.trans h.ewtsId
  cached := by rw [hpolicy.effectiveLevel, h.cached, hpolicy.2.2.1]
  closed := hclosed

theorem Process.Settled.initIfNeeded (os : Os) (order : HashOrder) (stamp : Timestamp) :
    p.initIfNeeded os order stamp = p := by
  rw [Process.initIfNeeded, if_pos h.initialized]

theorem Process.Settled.emit (os : Os) (c : Call) : (p.emit os c).Settled := by
  obtain ⟨hinit, s, hlogger⟩ := p.emit_frame os c
  apply h.of_same hinit
  · rw [hlogger]
    exact ⟨rfl, rfl, rfl, rfl⟩
  · rw [hlogger]
    exact h.closed

/-- Without logging the payload writer drops what it gets. -/
theorem Process.Settled.logPayload_disabled (hoff : p.logger.loggingEnabled = false) (os : Os)
    (order : HashOrder) (clock : Clock) (ewtsId : Text) (a : PayloadFields F) :
    p.logPayload fl os order clock ewtsId a = p := by
  have hclosed := h.closed hoff
  have hopen : p.openPayloadFileIfNeeded os order clock = p := by
    simp only [Process.openPayloadFileIfNeeded, hclosed, Option.isSome_none, Bool.false_eq_true,
      h.initIfNeeded, hoff, true_or, ite_true, ite_false]
  simp only [Process.logPayload, hopen, hclosed]

theorem Process.Settled.logPayload (os : Os) (order : HashOrder) (clock : Clock) (ewtsId : Text)
    (a : PayloadFields F) : (p.logPayload fl os order clock ewtsId a).Settled := by
  by_cases hoff : p.logger.loggingEnabled = false
  · rwa [h.logPayload_disabled fl hoff]
  · have hopened : (p.openPayloadFileIfNeeded os order clock).Settled ∧
        (p.openPayloadFileIfNeeded os order clock).logger.loggingEnabled =
          p.logger.loggingEnabled := by
      unfold Process.openPayloadFileIfNeeded
      simp only [h.initIfNeeded]
      split
      · exact ⟨h, rfl⟩
      · split
        · exact ⟨h, rfl⟩
        · exact ⟨h.of_same rfl ⟨rfl, rfl, rfl, rfl⟩ fun hq => absurd hq hoff, rfl⟩
    unfold Process.logPayload
    simp only
    split
    · exact hopened.1
    · exact hopened.1.of_same rfl ⟨rfl, rfl, rfl, rfl⟩ fun hq =>
        absurd (hopened.2.symm.trans hq) hoff

theorem Process.Settled.carryOut (os : Os) (order : HashOrder) (reader : Json.TreeReader)
    (c : Call) (o : Outcome) : (p.carryOut fl os order reader c o).Settled := by
  cases o with
  | dropped => exact h
  | payload ewtsId message => exact h.logPayload fl os order c.clock ewtsId _
  | lines ewtsId level => exact h.emit os _

/-- `Log(id, level, text)` carries out its decision. -/
theorem Process.Settled.log_eq (os : Os) (order : HashOrder) (reader : Json.TreeReader)
    (c : Call) : p.log fl os order reader c =
      p.carryOut fl os order reader c (p.logger.outcome c) := by
  unfold Process.log Logger.outcome
  simp only [h.initIfNeeded]
  split
  · rfl
  · split
    · rfl
    · split <;> rfl

theorem Process.Settled.log (os : Os) (order : HashOrder) (reader : Json.TreeReader) (c : Call) :
    (p.log fl os order reader c).Settled := by
  rw [h.log_eq]
  exact h.carryOut fl os order reader c _

theorem Process.Settled.ewtsNgenLog (os : Os) (order : HashOrder) (reader : Json.TreeReader)
    (clock : Clock) (ewtsId : Option Text) (level : Int) (message : Option Text) :
    (p.ewtsNgenLog fl os order reader clock ewtsId level message).Settled := by
  unfold Process.ewtsNgenLog
  split
  · split
    · exact h.logPayload fl os order clock _ _
    · exact h.log fl os order reader _
  · exact h

/-- An overload with a format ends in the process as it was or in `Log(id, level, text)`. -/
theorem Process.Settled.logFormat_eq (os : Os) (order : HashOrder) (reader : Json.TreeReader)
    (expand : Text → Option Text) (c : Call) :
    p.logFormat fl os order reader expand c.clock c.moduleName c.messageLevel (some c.message) =
      if p.logger.loggingEnabled = false then p
      else if c.messageLevel < (p.logger.effectiveLevel c.moduleName).value then p
      else (vsnprintf expand (cStr c.message)).elim p fun buf =>
        p.log fl os order reader { c with message := buf } := by
  unfold Process.logFormat
  simp only [h.initIfNeeded]
  cases vsnprintf expand (cStr c.message) <;> rfl

theorem Process.Settled.logLevelFormat_eq (os : Os) (order : HashOrder)
    (reader : Json.TreeReader) (expand : Text → Option Text) (clock : Clock) (level : Int)
    (message : Text) :
    p.logLevelFormat fl os order reader expand clock level (some message) =
      p.logFormat fl os order reader expand clock (text "NGEN") level (some message) := by
  unfold Process.logLevelFormat Process.logFormat
  simp only [h.initIfNeeded, h.cached, h.ewtsId]

theorem Process.Settled.logFormat (os : Os) (order : HashOrder) (reader : Json.TreeReader)
    (expand : Text → Option Text) (clock : Clock) (ewtsId : Text) (level : Int) (message : Text) :
    (p.logFormat fl os order reader expand clock ewtsId level (some message)).Settled := by
  rw [h.logFormat_eq fl os order reader expand ⟨ewtsId, level, message, clock⟩]
  split
  · exact h
  · split
    · exact h
    · cases vsnprintf expand (cStr message) with
      | none => exact h
      | some buf => exact h.log fl os order reader _

theorem Process.Settled.entry (e : Entry) (os : Os) (order : HashOrder) (reader : Json.TreeReader)
    (expand : Text → Option Text) (level : Int) (message : Text) (clock : Clock) :
    (e.run fl p os order reader expand level message clock).Settled := by
  cases e with
  | format ewtsId => exact h.logFormat fl os order reader expand clock ewtsId level message
  | bridge ewtsId => exact h.ewtsNgenLog fl os order reader clock (some ewtsId) level (some message)
  | message => exact h.log fl os order reader _
  | levelMessage => exact h.log fl os order reader _
  | levelFormat =>
    change (p.logLevelFormat fl os order reader expand clock level (some message)).Settled
    rw [h.logLevelFormat_eq]
    exact h.logFormat fl os order reader expand clock _ level message

theorem Process.Settled.next (order : HashOrder) (reader : Json.TreeReader) (e : Os × Event F) :
    (p.next fl order reader e).Settled := by
  obtain ⟨os, event⟩ := e
  cases event with
  | log c => exact h.log fl os order reader c
  | ewtsNgenLog clock ewtsId level message =>
    exact h.ewtsNgenLog fl os order reader clock ewtsId level message
  | logPayload clock ewtsId a => exact h.logPayload fl os order clock ewtsId a
  | setEnv env => exact h.of_same rfl ⟨rfl, rfl, rfl, rfl⟩ h.closed

end Settled

theorem Process.Reached.settled {p : Process} (h : p.Reached fl) : p.Settled := by
  induction h with
  | init os order stamp env files => exact settled_afterInit os order stamp env files
  | event p order reader e _ ih => exact ih.next fl order reader e
  | entry p e os order reader expand level message clock _ ih =>
    exact ih.entry fl e os order reader expand level message clock

/-! ## Agreement -/

theorem vsnprintf_eq_filter (expand : Text → Option Text) {format : Text}
    (hplain : ch '%' ∉ format) :
    vsnprintf expand format = (some format).filter (·.length ≤ intMax) := by
  have hany : ¬ format.any (· = ch '%') = true := by simpa using hplain
  rw [vsnprintf, if_neg hany]

/-- A text that `vsnprintf` copies. -/
theorem vsnprintf_of_plain (expand : Text → Option Text) {message : Text}
    (hnul : ∀ c ∈ message, c ≠ 0) (hplain : ch '%' ∉ message) (hlength : message.length ≤ intMax) :
    vsnprintf expand (cStr message) = some message := by
  rw [cStr_of_no_nul hnul, vsnprintf_eq_filter expand hplain, Option.filter_some, if_pos]
  exact decide_eq_true hlength

/-- Below a threshold there is no status, and nothing that passes the filter. -/
theorem Logger.outcome_below {lg : Logger} {c : Call}
    (h : c.messageLevel < (lg.effectiveLevel c.moduleName).value) : lg.outcome c = .dropped := by
  have hmax : ∀ level : LogLevel, level.value ≤ LogLevel.STATUS.value := by
    intro level
    cases level <;> decide
  have hle := hmax (lg.effectiveLevel c.moduleName)
  have hstatus : c.messageLevel ≠ LogLevel.STATUS.value := by omega
  have hpass : ¬ lg.passes c = true := by
    rw [Logger.passes, decide_eq_true_eq]
    omega
  unfold Logger.outcome
  rw [if_neg hstatus, if_neg hpass, ite_self]

/-- Filtering first with the level of the id changes nothing. -/
theorem Logger.formatOutcome_eq {lg : Logger} {expand : Text → Option Text} {c : Call}
    (h : vsnprintf expand (cStr c.message) = some c.message) :
    lg.formatOutcome expand (lg.effectiveLevel c.moduleName) c = lg.outcome c := by
  unfold Logger.formatOutcome
  rw [h]
  split
  · rename_i hoff
    unfold Logger.outcome
    rw [if_pos hoff]
  · split
    · rename_i hbelow
      exact (Logger.outcome_below hbelow).symm
    · rfl

section Agreement

variable {p : Process} (h : p.Settled) {expand : Text → Option Text} {message : Text}
  (hplain : vsnprintf expand (cStr message) = some message) (level : Int) (clock : Clock)
include h hplain

/-- The overload with a format does what `Log(id, level, text)` does. -/
theorem Process.Settled.logFormat_plain (os : Os) (order : HashOrder) (reader : Json.TreeReader)
    (ewtsId : Text) :
    p.logFormat fl os order reader expand clock ewtsId level (some message) =
      p.log fl os order reader ⟨ewtsId, level, message, clock⟩ := by
  rw [h.logFormat_eq fl os order reader expand ⟨ewtsId, level, message, clock⟩, hplain]
  split
  · rename_i hoff
    rw [h.log_eq, Logger.outcome, if_pos hoff]
    rfl
  · split
    · rename_i hbelow
      rw [h.log_eq, Logger.outcome_below hbelow]
      rfl
    · rfl

/-- All entry points leave the same state. -/
theorem Process.Settled.entry_eq (e : Entry) (hid : ∀ c ∈ e.ewtsId, c ≠ 0)
    (hnul : ∀ c ∈ message, c ≠ 0) (os : Os) (order : HashOrder) (reader : Json.TreeReader) :
    e.run fl p os order reader expand level message clock =
      p.log fl os order reader ⟨e.ewtsId, level, message, clock⟩ := by
  cases e with
  | format ewtsId => exact h.logFormat_plain fl hplain level clock os order reader ewtsId
  | bridge ewtsId =>
    change p.ewtsNgenLog fl os order reader clock (some ewtsId) level (some message) =
      p.log fl os order reader ⟨ewtsId, level, message, clock⟩
    have hid' : cStr ewtsId = ewtsId := cStr_of_no_nul hid
    rw [Process.ewtsNgenLog, hid', cStr_of_no_nul hnul]
    split
    · rename_i hstatus
      rw [h.log_eq, Logger.outcome]
      split
      · rename_i hoff
        exact h.logPayload_disabled fl hoff os order clock ewtsId _
      · rfl
    · rfl
  | message | levelMessage =>
    change p.log fl os order reader ⟨p.logger.ewtsId, level, message, clock⟩ = _
    rw [h.ewtsId]
    rfl
  | levelFormat =>
    change p.logLevelFormat fl os order reader expand clock level (some message) = _
    rw [h.logLevelFormat_eq]
    exact h.logFormat_plain fl hplain level clock os order reader (text "NGEN")

/-- All entry points decide alike, but for a status at the bridge without logging. -/
theorem Process.Settled.outcome_eq (e : Entry)
    (hbridge : (∀ ewtsId, e ≠ .bridge ewtsId) ∨ p.logger.loggingEnabled = true ∨
      level ≠ LogLevel.STATUS.value) :
    e.outcome p.logger expand level message clock =
      p.logger.outcome ⟨e.ewtsId, level, message, clock⟩ := by
  cases e with
  | format ewtsId =>
    exact Logger.formatOutcome_eq (c := ⟨ewtsId, level, message, clock⟩) hplain
  | bridge ewtsId =>
    have hstatus := hbridge.resolve_left fun hnot => hnot ewtsId rfl
    change (if level = _ then _ else _) = _
    split
    · rename_i hlevel
      have hon := hstatus.resolve_right fun hne => hne hlevel
      unfold Logger.outcome
      rw [if_neg (by rw [hon]; exact Bool.noConfusion), if_pos hlevel]
      rfl
    · rfl
  | message =>
    change p.logger.outcome ⟨p.logger.ewtsId, level, message, clock⟩ = _
    rw [h.ewtsId]
    rfl
  | levelMessage =>
    change p.logger.outcome ⟨p.logger.ewtsId, level, message, clock⟩ = _
    rw [h.ewtsId]
    rfl
  | levelFormat =>
    change p.logger.formatOutcome expand p.logger.logLevel
      ⟨p.logger.ewtsId, level, message, clock⟩ = _
    rw [h.ewtsId, ← h.cached]
    exact Logger.formatOutcome_eq (c := ⟨text "NGEN", level, message, clock⟩) hplain

end Agreement

/-- In every state after initialisation the entry points leave the process as
`Log(id, level, text)` does, which carries out its decision, and decide as it does. Only the
bridge hands a status to the payload writer without logging, which drops it. -/
theorem entry_points_agree {p : Process} (h : p.Reached fl) (e : Entry) (level : LogLevel)
    {message : Text} (hid : ∀ c ∈ e.ewtsId, c ≠ 0) (hnul : ∀ c ∈ message, c ≠ 0)
    (hplain : ch '%' ∉ message) (hlength : message.length ≤ intMax) (os : Os) (order : HashOrder)
    (reader : Json.TreeReader) (expand : Text → Option Text) (clock : Clock) :
    let c : Call := ⟨e.ewtsId, level.value, message, clock⟩
    e.run fl p os order reader expand level.value message clock = p.log fl os order reader c ∧
      p.log fl os order reader c = p.carryOut fl os order reader c (p.logger.outcome c) ∧
      ((∀ ewtsId, e ≠ .bridge ewtsId) ∨ p.logger.loggingEnabled = true ∨ level ≠ .STATUS →
        e.outcome p.logger expand level.value message clock = p.logger.outcome c) := by
  have hsettled := h.settled fl
  have hcopy := vsnprintf_of_plain expand hnul hplain hlength
  refine ⟨?_, hsettled.log_eq fl os order reader _, ?_⟩
  · exact hsettled.entry_eq fl hcopy level.value clock e hid hnul os order reader
  · intro hbridge
    apply hsettled.outcome_eq hcopy level.value clock e
    refine hbridge.imp_right (Or.imp_right fun hne heq => hne ?_)
    revert heq
    cases level <;> decide

/-! ## Examples -/

/-- The log file has no influence on the switch. -/
theorem afterInit_loggingEnabled (os : Os) (order : HashOrder) (stamp : Timestamp)
    (env : Environ) (files : Text → Option Text) :
    (afterInit os order stamp env files).logger.loggingEnabled =
      (policyOf os order .fresh env).loggingEnabled := by
  rw [afterInit_eq, Process.setupLogFile]
  split <;> rfl

/-- A process at the default levels. -/
private def infoProcess : Process :=
  afterInit (levelsOs []) insertionOrder default runEnv fun _ => none

/-- A host whose `ngen_logging.json` switches logging off. -/
private def silentOs : Os :=
  { levelsOs [] with readJson := fun _ => some ⟨some false, none, none, none⟩ }

private def silentProcess : Process :=
  afterInit silentOs insertionOrder default runEnv fun _ => none

theorem entry_points_agree_own :
    Entry.run SampleFloat.floats .levelFormat infoProcess (levelsOs []) insertionOrder
        Json.TreeReader.flat (fun _ => none) 30 (text "dry") default =
      infoProcess.log SampleFloat.floats (levelsOs []) insertionOrder Json.TreeReader.flat
        ⟨text "NGEN", 30, text "dry", default⟩ :=
  (entry_points_agree SampleFloat.floats (.init ..) .levelFormat .WARNING (by decide) (by decide)
    (by decide) (by decide) (levelsOs []) insertionOrder Json.TreeReader.flat (fun _ => none)
    default).1

/-- A text of more characters than an `int` counts is dropped by the overload with a format and
written by the other, and without logging the bridge hands a status on that `Log` drops. -/
theorem entry_points_differ :
    (infoProcess.Reached SampleFloat.floats ∧
      ∃ message : Text, message.length = 2147483648 ∧ (∀ c ∈ message, c = ch 'a') ∧
        (Entry.format (text "PET")).outcome infoProcess.logger (fun _ => none) 30 message default =
          .dropped ∧
        infoProcess.logger.outcome ⟨text "PET", 30, message, default⟩ = .lines (text "PET") 30) ∧
    silentProcess.Reached SampleFloat.floats ∧
      (Entry.bridge (text "PET")).outcome silentProcess.logger (fun _ => none) 60 (text "x")
        default = .payload (text "PET") (text "x") ∧
      silentProcess.logger.outcome ⟨text "PET", 60, text "x", default⟩ = .dropped := by
  have hon : infoProcess.logger.loggingEnabled = true := by
    rw [infoProcess, afterInit_loggingEnabled,
      policyOf_loaded _ _ _ (configOf_levelsOs [])]
    rfl
  have hoff : silentProcess.logger.loggingEnabled = false := by
    have hload : configOf silentOs (resultsDir runEnv) = some ⟨some false, none, none, none⟩ :=
      configOf_here (by decide) rfl
    rw [silentProcess, afterInit_loggingEnabled, policyOf_loaded _ _ _ hload]
    rfl
  have hlevel : infoProcess.logger.effectiveLevel (text "PET") = .INFO := by
    have hload (env : Environ) := effectiveLevel_load env
      (rfl : (⟨none, none, none, some []⟩ : ConfigTree).modules.getD [] = []) (text "PET")
    rw [infoProcess, afterInit_filter, policyOf_loaded _ _ _ (configOf_levelsOs []), hload]
    decide
  obtain ⟨message, hlength, hmem⟩ :
      ∃ message : Text, message.length = 2147483648 ∧ ∀ c ∈ message, c = ch 'a' :=
    ⟨List.replicate _ _, List.length_replicate, fun c hc => List.eq_of_mem_replicate hc⟩
  have hlong : vsnprintf (fun _ => none) (cStr message) = none := by
    have hnul : ∀ c ∈ message, c ≠ 0 := fun c hc => by rw [hmem c hc]; decide
    have hplain : ch '%' ∉ message := fun hc => absurd (hmem _ hc) (by decide)
    rw [cStr_of_no_nul hnul, vsnprintf_eq_filter _ hplain, Option.filter_some, if_neg]
    rw [hlength]
    decide
  have hpass : infoProcess.logger.passes ⟨text "PET", 30, message, default⟩ = true := by
    rw [Logger.passes, hlevel]
    rfl
  refine ⟨⟨.init .., message, hlength, hmem, ?_, ?_⟩, .init .., rfl, ?_⟩
  · simp only [Entry.outcome, Logger.formatOutcome, hlong, ite_self]
  · have hstatus : (30 : Int) ≠ LogLevel.STATUS.value := by decide
    rw [Logger.outcome, hpass, if_neg (by rw [hon]; exact Bool.noConfusion), if_neg hstatus,
      if_pos rfl]
  · rw [Logger.outcome, if_pos hoff]

end Ewts.Ngen
