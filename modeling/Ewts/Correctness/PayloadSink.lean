import Ewts.Core.Runs
import Ewts.Integration.Ngen.Log
import Ewts.Integration.Ngen.Policy

/-!
# Where status records go

A status that reaches ngen becomes one record, written once to the payload file, which is
opened at the first record. Without a log directory there is no such file, and no other
sink takes its place.
-/

namespace Ewts.Ngen

open Json

variable {F : Type} (fl : Floats F) {os : Os} {order : HashOrder} {reader : TreeReader}

/-- What can happen between the initialisation and a status. -/
inductive Event (F : Type) where
  | log (c : Call)
  | ewtsNgenLog (clock : Clock) (ewtsId : Option Text) (level : Int) (message : Option Text)
  | logPayload (clock : Clock) (ewtsId : Text) (a : PayloadFields F)
  | setEnv (env : Environ)

/-- The process after an event. -/
def Process.next (order : HashOrder) (reader : TreeReader) (p : Process) (e : Os × Event F) :
    Process :=
  match e.2 with
  | .log c => p.log fl e.1 order reader c
  | .ewtsNgenLog clock ewtsId level message =>
    p.ewtsNgenLog fl e.1 order reader clock ewtsId level message
  | .logPayload clock ewtsId a => p.logPayload fl e.1 order clock ewtsId a
  | .setEnv env => { p with env := env }

/-- One record was written, once: through the open payload stream, through one that was
opened for it, or to standard output. -/
def Process.WritesOnce (p q : Process) (record : Text) : Prop :=
  (∃ d s, (p.logger.payloadFile = some s ∧ d = p.disk ∨
      p.logger.payloadFile = none ∧ s.pos = 0 ∧ d = p.disk.openTrunc s.path) ∧
    q.disk = (d.write s record).1 ∧ q.logger.payloadFile = some (d.write s record).2 ∧
      q.stdout = p.stdout) ∨
  q.disk = p.disk ∧ q.stdout = p.stdout ++ record

/-- The JSON text cannot be extracted from the message, or not be parsed. -/
def Malformed (reader : TreeReader) (message : Text) : Prop :=
  (∃ e, extractJsonPayload (cStr message) = .error e) ∨
    ∃ json e, extractJsonPayload (cStr message) = .ok json ∧ reader.read json = .error e

/-- An initialised process with logging enabled; there is no payload file without a
directory. -/
structure Process.Ready (p : Process) (dir : Text) : Prop where
  initialized : p.initialized = true
  enabled : p.logger.loggingEnabled = true
  logFileDir : p.logger.logFileDir = dir
  payloadFile : p.logger.payloadFile.isSome → dir ≠ []

/-! ## One record -/

theorem payloadRecord_ne_nil (now : Timestamp) (moduleName : Text) (a : PayloadFields F) :
    payloadRecord fl now moduleName a ≠ [] := by
  simp [payloadRecord]

theorem fieldsOfMessage_malformed {message : Text} (h : Malformed reader message) :
    (fieldsOfMessage fl reader (some message)).status = payloadError := by
  unfold fieldsOfMessage
  rcases h with ⟨e, he⟩ | ⟨json, e, hok, he⟩
  · simp only [he]
    rfl
  · simp only [hok, he]
    rfl

/-- A status goes to `LogPayload` without a look at the level. -/
theorem Process.ewtsNgenLog_status (p : Process) (os : Os) (order : HashOrder)
    (reader : TreeReader) (clock : Clock) (ewtsId message : Text) :
    p.ewtsNgenLog fl os order reader clock (some ewtsId) 60 (some message) =
      p.logPayload fl os order clock ewtsId (fieldsOfMessage fl reader (some message)) :=
  rfl

section Ready

variable {p : Process} {dir : Text}

theorem Process.Ready.initIfNeeded (h : p.Ready dir) (os : Os) (order : HashOrder)
    (stamp : Timestamp) : p.initIfNeeded os order stamp = p := by
  rw [Process.initIfNeeded, if_pos h.initialized]

/-- Without a directory a record is lost, and nothing else happens. -/
theorem Process.Ready.logPayload_nil (h : p.Ready []) (os : Os) (order : HashOrder)
    (clock : Clock) (ewtsId : Text) (a : PayloadFields F) :
    p.logPayload fl os order clock ewtsId a = p := by
  have hclosed : p.logger.payloadFile = none := by
    cases hs : p.logger.payloadFile with
    | none => rfl
    | some s => exact absurd rfl (h.payloadFile (by rw [hs]; rfl))
  have hopen : p.openPayloadFileIfNeeded os order clock = p := by
    simp only [Process.openPayloadFileIfNeeded, hclosed, Option.isSome_none, Bool.false_eq_true,
      h.initIfNeeded, h.enabled, h.logFileDir, ite_true, ite_false, or_true]
  simp only [Process.logPayload, hopen, hclosed]

/-- With a directory the payload file is opened. -/
theorem Process.Ready.openPayloadFileIfNeeded (h : p.Ready dir) (hdir : dir ≠ [])
    (hclosed : p.logger.payloadFile = none) (hopens : ∀ path, os.opens path = true)
    (order : HashOrder) (clock : Clock) : ∃ path full,
      p.openPayloadFileIfNeeded os order clock =
        { p with
          disk := p.disk.openTrunc path
          logger := { p.logger with payloadFilePath := full, payloadFile := some ⟨path, 0⟩ } } := by
  have hgo : ¬(p.logger.loggingEnabled = false ∨ p.logger.logFileDir = []) := by
    rw [h.enabled, h.logFileDir]
    simp [hdir]
  unfold Process.openPayloadFileIfNeeded
  simp only [hclosed, h.initIfNeeded, if_neg hgo, openLog, hopens, ite_true]
  exact ⟨_, _, rfl⟩

/-- Then it is written once. -/
theorem Process.Ready.logPayload (h : p.Ready dir) (hdir : dir ≠ [])
    (hopens : ∀ path, os.opens path = true) (order : HashOrder) (clock : Clock) (ewtsId : Text)
    (a : PayloadFields F) :
    p.WritesOnce (p.logPayload fl os order clock ewtsId a)
      (payloadRecord fl clock.line (p.recordId ewtsId) a) ∧
    (p.logPayload fl os order clock ewtsId a).Ready dir := by
  cases hs : p.logger.payloadFile with
  | some s =>
    have hopen : p.openPayloadFileIfNeeded os order clock = p := by
      rw [Process.openPayloadFileIfNeeded, hs, Option.isSome_some, if_pos rfl]
    simp only [Process.logPayload, hopen, hs]
    constructor
    · exact Or.inl ⟨p.disk, s, Or.inl ⟨hs, rfl⟩, rfl, rfl, rfl⟩
    · exact ⟨h.initialized, h.enabled, h.logFileDir, fun _ => hdir⟩
  | none =>
    obtain ⟨path, full, hopen⟩ := h.openPayloadFileIfNeeded hdir hs hopens order clock
    simp only [Process.logPayload, hopen]
    constructor
    · exact Or.inl ⟨_, ⟨path, 0⟩, Or.inr ⟨hs, rfl, rfl⟩, rfl, rfl, rfl⟩
    · exact ⟨h.initialized, h.enabled, h.logFileDir, fun _ => hdir⟩

/-- A record is written once exactly when there is a log directory. -/
theorem Process.Ready.writesOnce_iff (h : p.Ready dir) (hopens : ∀ path, os.opens path = true)
    (order : HashOrder) (clock : Clock) (ewtsId : Text) (a : PayloadFields F) :
    (∃ b : PayloadFields F, p.WritesOnce (p.logPayload fl os order clock ewtsId a)
      (payloadRecord fl clock.line (p.recordId ewtsId) b)) ↔ dir ≠ [] := by
  constructor
  · rintro ⟨b, hb⟩ rfl
    rw [h.logPayload_nil] at hb
    rcases hb with ⟨d, s, hopen, _, hsome, _⟩ | ⟨_, hout⟩
    · exact h.payloadFile (by rw [hsome]; rfl) rfl
    · exact payloadRecord_ne_nil fl _ _ b (List.append_right_eq_self.mp hout.symm)
  · intro hdir
    exact ⟨a, (h.logPayload fl hdir hopens order clock ewtsId a).1⟩

theorem Process.Ready.emit (h : p.Ready dir) (os : Os) (c : Call) : (p.emit os c).Ready dir := by
  obtain ⟨hinit, s, hlogger⟩ := p.emit_frame os c
  constructor
  · exact hinit.trans h.initialized
  · rw [hlogger]
    exact h.enabled
  · rw [hlogger]
    exact h.logFileDir
  · rw [hlogger]
    exact h.payloadFile

/-- An event keeps the process ready. -/
theorem Process.Ready.next (h : p.Ready dir) (e : Os × Event F)
    (hopens : ∀ path, e.1.opens path = true) : (p.next fl order reader e).Ready dir := by
  have hpayload : ∀ clock ewtsId (a : PayloadFields F),
      (p.logPayload fl e.1 order clock ewtsId a).Ready dir := by
    intro clock ewtsId a
    by_cases hdir : dir = []
    · subst hdir
      rwa [h.logPayload_nil]
    · exact (h.logPayload fl hdir hopens order clock ewtsId a).2
  have hlog : ∀ c, (p.log fl e.1 order reader c).Ready dir := by
    intro c
    simp only [Process.log, h.initIfNeeded, h.enabled, Bool.true_eq_false, ite_false]
    split
    · exact hpayload _ _ _
    · split
      · exact h.emit e.1 c
      · exact h
  obtain ⟨os, event⟩ := e
  cases event with
  | log c => exact hlog c
  | ewtsNgenLog clock ewtsId level message =>
    cases ewtsId with
    | none => exact h
    | some ewtsId =>
      cases message with
      | none => exact h
      | some message =>
        change Process.Ready (if level = _ then _ else _) dir
        split
        · exact hpayload _ _ _
        · exact hlog _
  | logPayload clock ewtsId a => exact hpayload clock ewtsId a
  | setEnv env => exact ⟨h.initialized, h.enabled, h.logFileDir, h.payloadFile⟩

end Ready

/-! ## Runs -/

theorem Process.setupLogFile_ready {p : Process} (hinit : p.initialized = true)
    (hon : p.logger.loggingEnabled = true) (hclosed : p.logger.payloadFile = none) (os : Os)
    (stamp : Timestamp) (dir : Text) :
    (p.setupLogFile os stamp dir).Ready (logDirOf p.env dir) := by
  have hnone : p.logger.payloadFile.isSome → logDirOf p.env dir ≠ [] := by
    rw [hclosed]
    rintro ⟨⟩
  unfold Process.setupLogFile
  split
  · exact ⟨hinit, hon, rfl, hnone⟩
  · exact ⟨hinit, hon, rfl, hnone⟩

/-- The log directory that initialisation chooses. -/
theorem afterInit_ready (os : Os) (order : HashOrder) (stamp : Timestamp) (env : Environ)
    (files : Text → Option Text)
    (hon : (afterInit os order stamp env files).logger.loggingEnabled = true) :
    (afterInit os order stamp env files).Ready (logDirOf env (resultsDir env)) := by
  have hdir : logDirOf (setEnvVars order (policyOf os order .fresh env)
      (envAtRead os order .fresh env)) (resultsDir env) = logDirOf env (resultsDir env) := by
    have hname : ¬ text "_LOGLEVEL" <:+ text "EWTS_LOG_DIR" := by decide
    have hvar := afterInit_getenv_other os order stamp env files hname (by decide)
    rw [afterInit_env] at hvar
    rw [logDirOf, hvar, ← logDirOf]
  have henabled : (policyOf os order .fresh env).loggingEnabled = true := by
    rw [← hon, afterInit_eq, Process.setupLogFile]
    split <;> rfl
  have hclosed : (policyOf os order .fresh env).payloadFile = none := by
    unfold policyOf
    rw [Logger.readPolicy_eq]
    split <;> rfl
  rw [afterInit_eq, ← hdir]
  exact Process.setupLogFile_ready rfl henabled hclosed os stamp (resultsDir env)

/-- After any run, a status that reaches ngen is written once, as an `ERROR` when it is
malformed, exactly when initialisation found a results directory or a log directory. -/
theorem status_written_once_iff (os : Os) (order : HashOrder) (reader : TreeReader)
    (stamp : Timestamp) (env : Environ) (files : Text → Option Text)
    (hon : (afterInit os order stamp env files).logger.loggingEnabled = true)
    (events : List (Os × Event F)) (os' : Os)
    (hopens : ∀ path, (∀ e ∈ events, e.1.opens path = true) ∧ os'.opens path = true)
    (clock : Clock) (ewtsId message : Text) :
    let p := runFrom (Process.next fl order reader) (afterInit os order stamp env files) events
    (∃ a : PayloadFields F,
      p.WritesOnce (p.ewtsNgenLog fl os' order reader clock (some ewtsId) 60 (some message))
        (payloadRecord fl clock.line (p.recordId ewtsId) a) ∧
      (Malformed reader message → a.status = payloadError)) ↔
    resultsDir env ≠ [] ∨ getenv env (text "EWTS_LOG_DIR") ≠ [] := by
  intro p
  have hready : p.Ready (logDirOf env (resultsDir env)) := by
    apply runFrom_invariant (I := fun p : Process => p.Ready (logDirOf env (resultsDir env)))
    · exact fun q e he hq => hq.next fl e fun path => (hopens path).1 e he
    · exact afterInit_ready os order stamp env files hon
  have hopens' : ∀ path, os'.opens path = true := fun path => (hopens path).2
  have hdir : logDirOf env (resultsDir env) ≠ [] ↔
      resultsDir env ≠ [] ∨ getenv env (text "EWTS_LOG_DIR") ≠ [] := by
    unfold logDirOf
    by_cases h : resultsDir env = []
    · simp only [h, ite_true, ne_eq, not_true_eq_false, false_or]
    · simp only [h, ite_false, ne_eq, not_false_eq_true, true_or]
  rw [p.ewtsNgenLog_status, ← hdir]
  constructor
  · rintro ⟨a, ha, _⟩
    exact (hready.writesOnce_iff fl hopens' order clock ewtsId _).mp ⟨a, ha⟩
  · intro h
    exact ⟨_, (hready.logPayload fl h hopens' order clock ewtsId _).1,
      fieldsOfMessage_malformed fl⟩

theorem status_written_once_pet :
    let p := afterInit (levelsOs []) insertionOrder default logDirEnv fun _ => none
    ∃ a : PayloadFields SampleFloat,
      p.WritesOnce (p.ewtsNgenLog SampleFloat.floats (levelsOs []) insertionOrder .flat default
        (some (text "PET")) 60 (some (text "<MSG_DATA>\x7b")))
        (payloadRecord SampleFloat.floats (default : Clock).line (p.recordId (text "PET")) a) ∧
      (Malformed .flat (text "<MSG_DATA>\x7b") → a.status = payloadError) :=
  (status_written_once_iff SampleFloat.floats (levelsOs []) insertionOrder .flat default logDirEnv
    (fun _ => none) rfl [] (levelsOs []) (fun _ => ⟨by simp, rfl⟩) default (text "PET")
    (text "<MSG_DATA>\x7b")).mpr (Or.inr (by decide))

/-- Without a results directory and a log directory the record is lost. -/
theorem status_lost_without_directory :
    let p := afterInit (levelsOs []) insertionOrder default (fun _ => none) fun _ => none
    p.logger.loggingEnabled = true ∧ ¬ ∃ a : PayloadFields SampleFloat,
      p.WritesOnce (p.ewtsNgenLog SampleFloat.floats (levelsOs []) insertionOrder .flat default
        (some (text "PET")) 60 (some (text "{}")))
        (payloadRecord SampleFloat.floats (default : Clock).line (p.recordId (text "PET")) a) := by
  intro p
  have hready := afterInit_ready (levelsOs []) insertionOrder default (fun _ => none)
    (fun _ => none) rfl
  refine ⟨rfl, fun h => ?_⟩
  have hopens : ∀ path, (levelsOs []).opens path = true := fun _ => rfl
  rw [p.ewtsNgenLog_status] at h
  exact (hready.writesOnce_iff SampleFloat.floats hopens insertionOrder default (text "PET") _).mp h
    rfl

end Ewts.Ngen
