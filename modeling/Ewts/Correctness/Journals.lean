import Ewts.Core.Journal
import Ewts.Core.Refinement
import Ewts.Correctness.EntryPoints
import Ewts.Correctness.RankedFiles
import Ewts.Integration.Ngen.PayloadStatus

/-!
# The journals of ngen

What a run of ngen accepts are calls, which become lines of the unified log, and records of the
payload log. Along every run both files hold exactly what was accepted, in order, whatever entry
points the calls took and whatever happened to the environment between them.
-/

namespace Ewts.Ngen

variable {F : Type} (fl : Floats F)

/-! ## Paths of one process -/

/-- The characters behind a stem: of a rank and of a stamp. -/
private def isTail (c : CodePoint) : Bool := c.isDigit || c = ch 'T' || c = ch '_'

private theorem isTail_of_mem_compact {t : Timestamp} {c : CodePoint} (h : c ∈ t.compact) :
    isTail c = true := by
  rcases t.mem_compact h with hc | rfl
  · rw [isTail, hc]
    rfl
  · rfl

/-- Without its tail a file name ends in the stem or in the rank label. -/
private theorem rdropWhile_tail (os : Os) (dir : Text) (stamp : Timestamp) {body : Text}
    (hbody : ∀ c ∈ body.getLast?, isTail c = false) (hne : body ≠ []) :
    (body ++ rankPart os ++ tsPart dir stamp).rdropWhile isTail =
      body ++ (if os.mpiRank = none then [] else text "_mpi_process") := by
  have hself : ∀ l : Text, l ≠ [] → (∀ c ∈ l.getLast?, isTail c = false) →
      l.rdropWhile isTail = l := by
    intro l hl hlast
    rw [List.rdropWhile_eq_self_iff]
    intro _
    rw [hlast _ (List.getLast?_eq_some_getLast hl)]
    exact Bool.false_ne_true
  have hstamp : ∀ c ∈ tsPart dir stamp, isTail c = true := by
    intro c hc
    unfold tsPart at hc
    split at hc
    · rcases List.mem_cons.mp hc with rfl | hc
      · rfl
      · exact isTail_of_mem_compact hc
    · cases hc
  rw [rdropWhile_append_of_pos hstamp, rankPart]
  cases os.mpiRank with
  | none =>
    simp only [List.append_nil, ite_true]
    exact hself body hne hbody
  | some r =>
    have hlabel : text "_mpi_process_" = text "_mpi_process" ++ [ch '_'] := by decide
    have hdigits : ∀ c ∈ ch '_' :: decimal r, isTail c = true := by
      rw [List.forall_mem_cons]
      refine ⟨rfl, fun c hc => ?_⟩
      rw [isTail, isDigit_of_mem_decimal hc]
      rfl
    have hrank : body ++ (text "_mpi_process_" ++ decimal r) =
        (body ++ text "_mpi_process") ++ ch '_' :: decimal r := by
      rw [hlabel]
      simp only [List.append_assoc, List.singleton_append]
    simp only [reduceCtorEq, ite_false]
    rw [hrank, rdropWhile_append_of_pos hdigits]
    apply hself
    · simp [hne]
    · rw [List.getLast?_append_of_ne_nil _ (by decide)]
      rintro c ⟨⟩
      rfl

/-- Under one directory the unified log and the payload log have different names, whatever the
environments, the ranks and the times of their opening. -/
theorem unified_payload_paths_differ (dir : Text) (os os' : Os) (env env' : Environ)
    (stamp stamp' : Timestamp) :
    Stream.payload.path os env dir stamp ≠ Stream.unified.path os' env' dir stamp' := by
  intro h
  have hname := joinPath_inj (by simp [logFileName, text]) (by simp [logFileName, text]) h
  unfold logFileName at hname
  have hcut := congrArg (List.rdropWhile isTail) (List.append_cancel_right hname)
  rw [prependLogFilePrefix_eq, prependLogFilePrefix_eq] at hcut
  have hpayload : ∀ a : Text, ∀ c ∈ (a ++ Stream.payload.stem).getLast?, isTail c = false := by
    intro a
    rw [List.getLast?_append_of_ne_nil _ (by decide)]
    rintro c ⟨⟩
    rfl
  have hunified : ∀ a : Text, ∀ c ∈ (a ++ Stream.unified.stem).getLast?, isTail c = false := by
    intro a
    rw [List.getLast?_append_of_ne_nil _ (by decide)]
    rintro c ⟨⟩
    rfl
  rw [rdropWhile_tail os _ stamp (hpayload _) (by simp [Stream.stem, text]),
    rdropWhile_tail os' _ stamp' (hunified _) (by simp [Stream.stem, text])] at hcut
  have hletters : ∀ a b t t' : Text, t ≠ [] → t' ≠ [] → t.getLast? ≠ t'.getLast? →
      a ++ t ≠ b ++ t' := by
    intro a b t t' ht ht' hne heq
    have hends := congrArg List.getLast? heq
    rw [List.getLast?_append_of_ne_nil _ ht, List.getLast?_append_of_ne_nil _ ht'] at hends
    exact hne hends
  by_cases hrank : os.mpiRank = none <;> by_cases hrank' : os'.mpiRank = none
  · rw [if_pos hrank, if_pos hrank', List.append_nil, List.append_nil] at hcut
    exact hletters _ _ _ _ (by decide) (by decide) (by decide) hcut
  · rw [if_pos hrank, if_neg hrank', List.append_nil] at hcut
    exact hletters _ _ _ _ (by decide) (by decide) (by decide) hcut
  · rw [if_neg hrank, if_pos hrank', List.append_nil] at hcut
    exact hletters _ _ _ _ (by decide) (by decide) (by decide) hcut
  · rw [if_neg hrank, if_neg hrank'] at hcut
    exact hletters _ _ _ _ (by decide) (by decide) (by decide) (List.append_cancel_right hcut)

/-- `open` sees such a path whole. -/
theorem cStr_path {dir : Text} (hdir : ∀ c ∈ dir, c ≠ 0) {s : Stream} (hs : ∀ c ∈ s.stem, c ≠ 0)
    (os : Os) (env : Environ) (stamp : Timestamp) :
    cStr (s.path os env dir stamp) = s.path os env dir stamp := by
  obtain ⟨pre, hpre, hjoin⟩ := joinPath_frame dir
  have hlabel : ∀ c ∈ text "_mpi_process_", c ≠ 0 := by decide
  have hlog : ∀ c ∈ text ".log", c ≠ 0 := by decide
  have htail : ∀ c, isTail c = true → c ≠ 0 := by
    rintro c hc rfl
    exact absurd hc (by decide)
  apply cStr_of_no_nul
  rw [Stream.path, hjoin _ (by simp [logFileName, text]), logFileName, prependLogFilePrefix_eq]
  simp only [List.forall_mem_append]
  refine ⟨fun c hc => ?_, ⟨⟨⟨filePrefix_no_nul env, hs⟩, fun c hc => ?_⟩, fun c hc => ?_⟩, hlog⟩
  · rcases hpre c hc with hc | rfl
    · exact hdir c hc
    · decide
  · unfold rankPart at hc
    split at hc
    · cases hc
    · rcases List.mem_append.mp hc with hc | hc
      · exact hlabel c hc
      · exact htail c (by rw [isTail, isDigit_of_mem_decimal hc]; rfl)
  · unfold tsPart at hc
    split at hc
    · rcases List.mem_cons.mp hc with rfl | hc
      · decide
      · exact htail c (isTail_of_mem_compact hc)
    · cases hc

/-! ## What is accepted -/

/-- What can reach the logger: a call of one of its entry points, or a new environment. -/
inductive Input (F : Type) where
  | event (e : Event F)
  | entry (e : Entry) (expand : Text → Option Text) (level : Int) (message : Text) (clock : Clock)
  | payloadJson (clock : Clock) (ewtsId : Text) (message : Option Text)
  | payloadStatus (clock : Clock) (a : StatusCall F)

/-- The process after an input. -/
def Process.take (order : HashOrder) (reader : Json.TreeReader) (p : Process)
    (i : Os × Input F) : Process :=
  match i.2 with
  | .event e => p.next fl order reader (i.1, e)
  | .entry e expand level message clock => e.run fl p i.1 order reader expand level message clock
  | .payloadJson clock ewtsId message =>
    p.logPayloadJson fl i.1 order reader clock ewtsId message
  | .payloadStatus clock a => p.ewtsNgenPayloadStatus fl i.1 order clock a

/-- A record of the payload log, before it is written. -/
structure Record (F : Type) where
  clock : Clock
  ewtsId : Text
  fields : PayloadFields F

/-- Its text, with the newline. -/
def Record.written (r : Record F) : Text := payloadRecord fl r.clock.line r.ewtsId r.fields

/-- What becomes of an input. -/
inductive Delivery (F : Type) where
  | nothing
  | lines (c : Call)
  | record (r : Record F)
  | environment (env : Environ)

/-- A record is refused without logging. -/
def Logger.deliverRecord (lg : Logger) (clock : Clock) (ewtsId : Text) (a : PayloadFields F) :
    Delivery F :=
  if lg.loggingEnabled then
    .record ⟨clock, if cStr ewtsId = [] then lg.ewtsId else cStr ewtsId, a⟩
  else .nothing

/-- A call becomes what `Log(id, level, text)` decides. -/
def Logger.deliver (reader : Json.TreeReader) (lg : Logger) (c : Call) : Delivery F :=
  match lg.outcome c with
  | .dropped => .nothing
  | .payload ewtsId message =>
    lg.deliverRecord c.clock ewtsId (fieldsOfMessage fl reader (some message))
  | .lines _ _ => .lines c

/-- The call that an entry point stands for; a text that cannot be formatted is none. -/
def Entry.call (e : Entry) (expand : Text → Option Text) (level : Int) (message : Text)
    (clock : Clock) : Option Call :=
  match e with
  | .format ewtsId =>
    (vsnprintf expand (cStr message)).map fun buf => ⟨ewtsId, level, buf, clock⟩
  | .levelFormat =>
    (vsnprintf expand (cStr message)).map fun buf => ⟨text "NGEN", level, buf, clock⟩
  | .bridge ewtsId => some ⟨cStr ewtsId, level, cStr message, clock⟩
  | .message | .levelMessage => some ⟨text "NGEN", level, message, clock⟩

/-- What a policy makes of an input. -/
def Logger.delivery (reader : Json.TreeReader) (lg : Logger) : Input F → Delivery F
  | .event (.log c) => lg.deliver fl reader c
  | .event (.ewtsNgenLog clock (some ewtsId) level (some message)) =>
    lg.deliver fl reader ⟨cStr ewtsId, level, cStr message, clock⟩
  | .event (.ewtsNgenLog ..) => .nothing
  | .event (.logPayload clock ewtsId a) => lg.deliverRecord clock ewtsId a
  | .event (.setEnv env) => .environment env
  | .entry e expand level message clock =>
    (e.call expand level message clock).elim .nothing (lg.deliver fl reader)
  | .payloadJson clock ewtsId message =>
    lg.deliverRecord clock ewtsId (fieldsOfMessage fl reader message)
  | .payloadStatus clock a => lg.deliverRecord clock (a.ewtsId.getD []) (statusFields a)

/-! ## Journals -/

/-- The accepted calls, and the accepted records with the path that the first one opened. -/
structure Journals (F : Type) where
  env : Environ
  calls : List Call
  payload : Option (Text × List (Record F))

/-- Before any input. -/
def Journals.start (env : Environ) : Journals F := ⟨env, [], none⟩

/-- Take a delivery. A record is lost when the payload log is not open and cannot be opened. -/
def Journals.accept (dir : Text) (j : Journals F) (os : Os) : Delivery F → Journals F
  | .nothing => j
  | .environment env => { j with env := env }
  | .lines c => { j with calls := j.calls ++ [c] }
  | .record r =>
    let path := cStr (Stream.payload.path os j.env dir r.clock.file)
    { j with
      payload := match j.payload with
        | some (path, records) => some (path, records ++ [r])
        | none => if dir ≠ [] ∧ os.opens path then some (path, [r]) else none }

/-- The journals after an input, under the policy of a logger. -/
def Journals.take (reader : Json.TreeReader) (lg : Logger) (j : Journals F) (i : Os × Input F) :
    Journals F :=
  j.accept lg.logFileDir i.1 (lg.delivery fl reader i.2)

/-- What a process accepts of a list of inputs. -/
def Process.accepted (reader : Json.TreeReader) (start : Process) (inputs : List (Os × Input F)) :
    Journals F :=
  runFrom (Journals.take fl reader start.logger) (.start start.env) inputs

/-- The lines of the unified log. -/
def Journals.log (j : Journals F) : Text := (j.calls.flatMap Call.lines).flatten

/-- The text of the payload log. -/
def recordsText (records : List (Record F)) : Text := (records.map (Record.written fl)).flatten

/-- Where the lines are: in the file that was opened at the start, or on standard output. -/
def Process.ShowsLog (p start : Process) (log : Text) : Option OutStream → Prop
  | some s => p.stdout = start.stdout ∧
      ∃ s', p.logger.logFile = some s' ∧ s'.path = s.path ∧ s'.AtEnd p.disk log
  | none => p.logger.logFile = none ∧ p.stdout = start.stdout ++ log

/-- Where the records are: in a file of their own, which the first one opened. -/
def Process.ShowsPayload (p start : Process) : Option (Text × List (Record F)) → Prop
  | some (path, records) => p.PayloadOpen path (recordsText fl records) ∧
      (∀ s ∈ start.logger.logFile, path ≠ s.path) ∧ p.disk.opened = start.disk.opened ++ [path]
  | none => p.logger.payloadFile = none ∧ p.disk.opened = start.disk.opened

/-- The outputs of a process that started in a state show the journals, and nothing else. -/
structure Process.Shows (p start : Process) (j : Journals F) : Prop where
  env : p.env = j.env
  log : p.ShowsLog start j.log start.logger.logFile
  payload : p.ShowsPayload fl start j.payload
  others : ∀ other, (∀ s ∈ start.logger.logFile, other ≠ s.path) →
    (∀ q ∈ j.payload, other ≠ q.1) → p.disk.files other = start.disk.files other

/-- What does not change along a run. -/
structure Process.Kept (p start : Process) : Prop where
  settled : p.Settled
  policy : start.logger.SamePolicy p.logger
  mode : p.logger.splitLogsByModule = false
  logFileDir : p.logger.logFileDir = start.logger.logFileDir

/-- The unified log that a process started with has the path of its directory. -/
structure Process.Opened (start : Process) : Prop where
  no_nul : ∀ c ∈ start.logger.logFileDir, c ≠ 0
  path : ∀ s ∈ start.logger.logFile, ∃ os env stamp,
    s.path = Stream.unified.path os env start.logger.logFileDir stamp

/-! ## Steps -/

section Steps

variable {fl} {p start : Process} {j : Journals F}

/-- A call that keeps the policy and the directory. -/
theorem Process.Kept.of_logger (hk : p.Kept start) {q : Process} (hsettled : q.Settled)
    (hpolicy : p.logger.SamePolicy q.logger)
    (hmode : q.logger.splitLogsByModule = p.logger.splitLogsByModule)
    (hdir : q.logger.logFileDir = p.logger.logFileDir) : q.Kept start := by
  obtain ⟨henabled, hid, hlevel, hlevels⟩ := hk.policy
  obtain ⟨henabled', hid', hlevel', hlevels'⟩ := hpolicy
  constructor
  · exact hsettled
  · exact ⟨henabled'.trans henabled, hid'.trans hid, hlevel'.trans hlevel, hlevels'.trans hlevels⟩
  · exact hmode.trans hk.mode
  · exact hdir.trans hk.logFileDir

theorem Process.Kept.outcome (hk : p.Kept start) (c : Call) :
    p.logger.outcome c = start.logger.outcome c := by
  unfold Logger.outcome Logger.passes
  rw [hk.policy.1, hk.policy.effectiveLevel]

theorem Process.Kept.emit (hk : p.Kept start) (os : Os) (c : Call) :
    (p.emit os c).Kept start := by
  obtain ⟨_, s, hlogger⟩ := p.emit_frame os c
  apply hk.of_logger (hk.settled.emit os c)
  · rw [hlogger]
    exact ⟨rfl, rfl, rfl, rfl⟩
  · rw [hlogger]
  · rw [hlogger]

/-- The lines of a call are appended to the unified log, or to standard output. -/
theorem Process.Shows.emit (hk : p.Kept start) (h : p.Shows fl start j) (os : Os) (c : Call) :
    (p.emit os c).Shows fl start (j.accept start.logger.logFileDir os (.lines c)) := by
  have hemit : p.emit os c = p.writeLog c.lines := by
    rw [Process.emit, if_neg (by rw [hk.mode]; exact Bool.false_ne_true)]
  have hlog : (j.accept start.logger.logFileDir os (.lines c)).log = j.log ++ c.lines.flatten := by
    simp only [Journals.accept, Journals.log, List.flatMap_append, List.flatten_append,
      List.flatMap_singleton]
  have hshown := h.log
  rw [hemit, Process.writeLog]
  cases hstart : start.logger.logFile with
  | none =>
    rw [hstart] at hshown
    obtain ⟨hnone, hout⟩ := hshown
    simp only [hnone]
    constructor
    · exact h.env
    · rw [hstart]
      exact ⟨hnone, by rw [hout, hlog, List.append_assoc]⟩
    · exact h.payload
    · exact h.others
  | some s =>
    rw [hstart] at hshown
    obtain ⟨hout, s', hs', hpath, hend⟩ := hshown
    simp only [hs']
    constructor
    · exact h.env
    · rw [hstart, hlog]
      exact ⟨hout, _, rfl, (Disk.writeAll_path ..).trans hpath, hend.writeAll c.lines⟩
    · have hpayload := h.payload
      change Process.ShowsPayload fl _ start j.payload
      cases hj : j.payload with
      | none =>
        rw [hj] at hpayload
        exact ⟨hpayload.1, (Disk.writeAll_opened ..).trans hpayload.2⟩
      | some q =>
        rw [hj] at hpayload
        obtain ⟨⟨t, ht, htpath, htend⟩, hne, hopened⟩ := hpayload
        refine ⟨⟨t, ht, htpath, htend.frame ?_⟩, hne, (Disk.writeAll_opened ..).trans hopened⟩
        apply Disk.writeAll_other
        rw [htpath, hpath]
        exact hne s hstart
    · intro other hother hq
      have hne : other ≠ s'.path := by
        rw [hpath]
        exact hother s hstart
      exact (Disk.writeAll_other _ hne _).trans (h.others other hother hq)

/-- A record goes through the open payload stream. -/
theorem Process.logPayload_open {s : OutStream} (hs : p.logger.payloadFile = some s) (os : Os)
    (order : HashOrder) (clock : Clock) (ewtsId : Text) (a : PayloadFields F) :
    p.logPayload fl os order clock ewtsId a =
      p.writePayload s (payloadRecord fl clock.line (p.recordId ewtsId) a) := by
  have hopen : p.openPayloadFileIfNeeded os order clock = p := by
    rw [openPayloadFileIfNeeded, hs, Option.isSome_some, if_pos rfl]
  simp only [Process.logPayload, hopen, hs]

variable (fl) in
/-- Opening and writing the payload log concern its stream and its path. -/
theorem Process.Kept.logPayload_frame (hk : p.Kept start) (os : Os) (order : HashOrder)
    (clock : Clock) (ewtsId : Text) (a : PayloadFields F) :
    ∃ path s, (p.logPayload fl os order clock ewtsId a).logger =
      { p.logger with payloadFilePath := path, payloadFile := s } := by
  obtain ⟨path, s, hopen⟩ : ∃ path s, (p.openPayloadFileIfNeeded os order clock).logger =
      { p.logger with payloadFilePath := path, payloadFile := s } := by
    unfold Process.openPayloadFileIfNeeded
    simp only [hk.settled.initIfNeeded]
    split
    · exact ⟨p.logger.payloadFilePath, p.logger.payloadFile, rfl⟩
    · split
      · exact ⟨p.logger.payloadFilePath, p.logger.payloadFile, rfl⟩
      · exact ⟨_, _, rfl⟩
  unfold Process.logPayload
  simp only
  split
  · exact ⟨path, s, hopen⟩
  · exact ⟨path, _, by rw [Process.writePayload, hopen]⟩

theorem Process.Kept.logPayload (hk : p.Kept start) (os : Os) (order : HashOrder) (clock : Clock)
    (ewtsId : Text) (a : PayloadFields F) :
    (p.logPayload fl os order clock ewtsId a).Kept start := by
  obtain ⟨path, s, hlogger⟩ := hk.logPayload_frame fl os order clock ewtsId a
  apply hk.of_logger (hk.settled.logPayload fl os order clock ewtsId a)
  · rw [hlogger]
    exact ⟨rfl, rfl, rfl, rfl⟩
  · rw [hlogger]
  · rw [hlogger]

/-- Writing a record at the end of an open payload log. -/
theorem Process.Shows.writePayload (h : p.Shows fl start j) {path : Text}
    {records : List (Record F)} (hj : j.payload = some (path, records)) {s : OutStream}
    (hs : p.logger.payloadFile = some s) (r : Record F) :
    (p.writePayload s (r.written fl)).Shows fl start
      { j with payload := some (path, records ++ [r]) } := by
  have hpayload := h.payload
  rw [hj] at hpayload
  obtain ⟨⟨t, ht, htpath, htend⟩, hne, hopened⟩ := hpayload
  obtain rfl : s = t := Option.some.inj (hs.symm.trans ht)
  have hframe : ∀ other, other ≠ s.path →
      (p.writePayload s (r.written fl)).disk.files other = p.disk.files other :=
    fun other hother => p.disk.write_other hother _
  constructor
  · exact h.env
  · have hlog := h.log
    cases hstart : start.logger.logFile with
    | none =>
      rw [hstart] at hlog
      exact hlog
    | some t =>
      rw [hstart] at hlog
      obtain ⟨hout, s', hs', hpath', hend'⟩ := hlog
      refine ⟨hout, s', hs', hpath', hend'.frame (hframe _ ?_)⟩
      rw [hpath', htpath]
      exact (hne t hstart).symm
  · have htext : recordsText fl (records ++ [r]) = recordsText fl records ++ r.written fl := by
      simp only [recordsText, List.map_append, List.flatten_append, List.map_cons, List.map_nil,
        List.flatten_cons, List.flatten_nil, List.append_nil]
    have hwrite : (p.writePayload s (r.written fl)).PayloadOpen s.path
        (recordsText fl (records ++ [r])) := by
      rw [htext]
      exact .write htend _
    rw [htpath] at hwrite
    exact ⟨hwrite, hne, hopened⟩
  · intro other hother hq
    have hpath : other ≠ s.path := by
      rw [htpath]
      exact hq (path, records ++ [r]) rfl
    rw [hframe other hpath]
    refine h.others other hother fun q hmem => ?_
    rw [hj] at hmem
    rw [← Option.some.inj hmem, ← htpath]
    exact hpath

/-- The payload log is opened, empty, beside the unified log. -/
theorem Process.Shows.openPayload (h : p.Shows fl start j) (hj : j.payload = none) {path : Text}
    (full : Text) (hne : ∀ s ∈ start.logger.logFile, path ≠ s.path) :
    Process.Shows fl
      { p with
        disk := p.disk.openTrunc path
        logger := { p.logger with payloadFilePath := full, payloadFile := some ⟨path, 0⟩ } }
      start { j with payload := some (path, []) } := by
  have hpayload := h.payload
  rw [hj] at hpayload
  constructor
  · exact h.env
  · have hlog := h.log
    cases hstart : start.logger.logFile with
    | none =>
      rw [hstart] at hlog
      exact hlog
    | some s =>
      rw [hstart] at hlog
      obtain ⟨hout, s', hs', hpath, hend⟩ := hlog
      refine ⟨hout, s', hs', hpath, hend.frame (p.disk.openTrunc_other ?_)⟩
      rw [hpath]
      exact (hne s hstart).symm
  · refine ⟨⟨_, rfl, rfl, p.disk.atEnd_openTrunc path⟩, hne, ?_⟩
    change p.disk.opened ++ [path] = _
    rw [hpayload.2]
  · intro other hother hq
    have hpath : other ≠ path := hq (path, []) rfl
    refine (p.disk.openTrunc_other hpath).trans (h.others other hother fun q hmem => ?_)
    rw [hj] at hmem
    cases hmem

/-- The three outcomes of `OpenPayloadFileIfNeeded` on a closed stream. -/
theorem Process.Kept.openPayload (hk : p.Kept start) (hon : p.logger.loggingEnabled = true)
    (hclosed : p.logger.payloadFile = none) (os : Os) (order : HashOrder) (clock : Clock) :
    p.openPayloadFileIfNeeded os order clock =
      let path := Stream.payload.path os p.env start.logger.logFileDir clock.file
      if start.logger.logFileDir = [] then p
      else if os.opens (cStr path) then
        { p with
          disk := p.disk.openTrunc (cStr path)
          logger := { p.logger with payloadFilePath := path, payloadFile := some ⟨cStr path, 0⟩ } }
      else { p with logger := { p.logger with payloadFilePath := path, payloadFile := none } } := by
  unfold Process.openPayloadFileIfNeeded
  simp only [hclosed, Option.isSome_none, Bool.false_eq_true, ite_false, hk.settled.initIfNeeded,
    hon, Bool.true_eq_false, false_or, hk.logFileDir, openLog]
  split
  · rfl
  · split
    · rename_i hopens
      rw [Stream.path, Stream.stem, if_pos hopens]
    · rename_i hopens
      rw [Stream.path, Stream.stem, if_neg hopens]

/-- A record is appended to the payload log, which the first one opens if it can. -/
theorem Process.Shows.logPayload (hstart : start.Opened) (hk : p.Kept start)
    (h : p.Shows fl start j) (os : Os) (order : HashOrder) (clock : Clock) (ewtsId : Text)
    (a : PayloadFields F) :
    (p.logPayload fl os order clock ewtsId a).Shows fl start
      (j.accept start.logger.logFileDir os (start.logger.deliverRecord clock ewtsId a)) := by
  by_cases hon : start.logger.loggingEnabled = true
  · have hdeliver : start.logger.deliverRecord clock ewtsId a =
        .record ⟨clock, p.recordId ewtsId, a⟩ := by
      rw [Logger.deliverRecord, if_pos hon, Process.recordId, hk.policy.2.1]
    rw [hdeliver]
    have hpayload := h.payload
    cases hj : j.payload with
    | some q =>
      obtain ⟨path, records⟩ := q
      rw [hj] at hpayload
      obtain ⟨⟨s, hs, _, _⟩, _⟩ := hpayload
      rw [Process.logPayload_open hs, Journals.accept, hj]
      exact h.writePayload hj hs ⟨clock, p.recordId ewtsId, a⟩
    | none =>
      rw [hj] at hpayload
      have hopen := hk.openPayload (hk.policy.1.trans hon) hpayload.1 os order clock
      obtain ⟨path, hpath⟩ : ∃ path,
          path = Stream.payload.path os j.env start.logger.logFileDir clock.file := ⟨_, rfl⟩
      have hne : ∀ s ∈ start.logger.logFile, cStr path ≠ s.path := by
        intro s hs
        obtain ⟨os', env, stamp, hs'⟩ := hstart.path s hs
        rw [hpath, cStr_path hstart.no_nul (by decide), hs']
        exact unified_payload_paths_differ _ _ _ _ _ _ _
      have henv : Stream.payload.path os p.env start.logger.logFileDir clock.file = path := by
        rw [h.env, hpath]
      rw [Journals.accept, hj, ← hpath]
      simp only [henv] at hopen
      by_cases hdir : start.logger.logFileDir = []
      · rw [if_pos hdir] at hopen
        simp only [Process.logPayload, hopen, hpayload.1]
        rw [if_neg fun hand => hand.1 hdir]
        exact ⟨h.env, h.log, hpayload, hj ▸ h.others⟩
      · rw [if_neg hdir] at hopen
        by_cases hopens : os.opens (cStr path) = true
        · rw [if_pos hopens] at hopen
          have hwrite := (h.openPayload hj path hne).writePayload rfl rfl
            ⟨clock, p.recordId ewtsId, a⟩
          simp only [Process.logPayload, hopen]
          rw [if_pos ⟨hdir, hopens⟩]
          exact hwrite
        · rw [if_neg hopens] at hopen
          simp only [Process.logPayload, hopen]
          rw [if_neg fun hand => hopens hand.2]
          exact ⟨h.env, h.log, ⟨rfl, hpayload.2⟩, hj ▸ h.others⟩
  · have hoff : p.logger.loggingEnabled = false := by
      rw [hk.policy.1]
      exact Bool.eq_false_iff.mpr hon
    rw [hk.settled.logPayload_disabled fl hoff, Logger.deliverRecord, if_neg hon]
    exact h

/-- The calls that log lines do so under their own id and level. -/
theorem Logger.outcome_lines {lg : Logger} {c : Call} {ewtsId : Text} {level : Int}
    (h : lg.outcome c = .lines ewtsId level) : ⟨ewtsId, level, c.message, c.clock⟩ = c := by
  unfold Logger.outcome at h
  split at h
  · cases h
  · split at h
    · cases h
    · split at h
      · cases h
        rfl
      · cases h

/-- A call is delivered as its outcome says. -/
theorem Process.Shows.logCall (hstart : start.Opened) (hk : p.Kept start) (h : p.Shows fl start j)
    (os : Os) (order : HashOrder) (reader : Json.TreeReader) (c : Call) :
    (p.log fl os order reader c).Kept start ∧
      (p.log fl os order reader c).Shows fl start
        (j.accept start.logger.logFileDir os (start.logger.deliver fl reader c)) := by
  rw [hk.settled.log_eq, hk.outcome, Logger.deliver]
  cases ho : start.logger.outcome c with
  | dropped => exact ⟨hk, h⟩
  | payload ewtsId message =>
    exact ⟨hk.logPayload os order c.clock ewtsId _,
      h.logPayload hstart hk os order c.clock ewtsId _⟩
  | lines ewtsId level =>
    simp only [Process.carryOut, Logger.outcome_lines ho]
    exact ⟨hk.emit os c, h.emit hk os c⟩

/-- An overload with a format logs its expanded text. -/
theorem Process.Settled.logFormat_expand (h : p.Settled) (os : Os) (order : HashOrder)
    (reader : Json.TreeReader) (expand : Text → Option Text) (clock : Clock) (ewtsId : Text)
    (level : Int) (message : Text) :
    p.logFormat fl os order reader expand clock ewtsId level (some message) =
      (vsnprintf expand (cStr message)).elim p fun buf =>
        p.log fl os order reader ⟨ewtsId, level, buf, clock⟩ := by
  rw [h.logFormat_eq fl os order reader expand ⟨ewtsId, level, message, clock⟩]
  cases vsnprintf expand (cStr message) with
  | none => simp only [Option.elim_none, ite_self]
  | some buf =>
    simp only [Option.elim_some]
    split
    · rename_i hoff
      rw [h.log_eq, Logger.outcome, if_pos hoff]
      rfl
    · split
      · rename_i hbelow
        rw [h.log_eq, Logger.outcome_below hbelow]
        rfl
      · rfl

/-- The bridge logs the strings that its pointers stand for. -/
theorem Process.Settled.ewtsNgenLog_eq (h : p.Settled) (os : Os) (order : HashOrder)
    (reader : Json.TreeReader) (clock : Clock) (ewtsId : Text) (level : Int) (message : Text) :
    p.ewtsNgenLog fl os order reader clock (some ewtsId) level (some message) =
      p.log fl os order reader ⟨cStr ewtsId, level, cStr message, clock⟩ := by
  unfold Process.ewtsNgenLog
  simp only
  split
  · rename_i hstatus
    have hfields : fieldsOfMessage fl reader (some (cStr message)) =
        fieldsOfMessage fl reader (some message) := by
      simp only [fieldsOfMessage, cStr_cStr]
    have hid : ∀ q : Process, q.recordId (cStr ewtsId) = q.recordId ewtsId := by
      intro q
      rw [Process.recordId, Process.recordId, cStr_cStr]
    rw [h.log_eq, Logger.outcome]
    by_cases hoff : p.logger.loggingEnabled = false
    · rw [if_pos hoff]
      exact h.logPayload_disabled fl hoff os order clock ewtsId _
    · rw [if_neg hoff, if_pos hstatus]
      simp only [Process.carryOut, Process.logPayloadJson, Process.logPayload, hfields, hid]
  · rfl

/-- The call of an entry point. -/
theorem Process.Settled.entry_call (h : p.Settled) (e : Entry) (os : Os) (order : HashOrder)
    (reader : Json.TreeReader) (expand : Text → Option Text) (level : Int) (message : Text)
    (clock : Clock) : e.run fl p os order reader expand level message clock =
      (e.call expand level message clock).elim p (p.log fl os order reader) := by
  cases e with
  | format ewtsId =>
    rw [Entry.run, h.logFormat_expand, Entry.call]
    cases vsnprintf expand (cStr message) <;> rfl
  | bridge ewtsId => exact h.ewtsNgenLog_eq os order reader clock ewtsId level message
  | message | levelMessage =>
    change p.log fl os order reader ⟨p.logger.ewtsId, level, message, clock⟩ = _
    rw [h.ewtsId]
    rfl
  | levelFormat =>
    rw [Entry.run, h.logLevelFormat_eq, h.logFormat_expand, Entry.call]
    cases vsnprintf expand (cStr message) <;> rfl

/-- Every input leaves outputs that show the journals with its delivery. -/
theorem Process.Shows.take (hstart : start.Opened) (hk : p.Kept start) (h : p.Shows fl start j)
    (order : HashOrder) (reader : Json.TreeReader) (i : Os × Input F) :
    (p.take fl order reader i).Kept start ∧
      (p.take fl order reader i).Shows fl start (j.take fl reader start.logger i) := by
  obtain ⟨os, input⟩ := i
  have hrecord : ∀ clock ewtsId (a : PayloadFields F),
      (p.logPayload fl os order clock ewtsId a).Kept start ∧
        (p.logPayload fl os order clock ewtsId a).Shows fl start
          (j.accept start.logger.logFileDir os (start.logger.deliverRecord clock ewtsId a)) :=
    fun clock ewtsId a => ⟨hk.logPayload os order clock ewtsId a,
      h.logPayload hstart hk os order clock ewtsId a⟩
  cases input with
  | event e =>
    cases e with
    | log c => exact h.logCall hstart hk os order reader c
    | ewtsNgenLog clock ewtsId level message =>
      cases ewtsId with
      | none => exact ⟨hk, h⟩
      | some ewtsId =>
        cases message with
        | none => exact ⟨hk, h⟩
        | some message =>
          have htake : p.take fl order reader
              (os, .event (.ewtsNgenLog clock (some ewtsId) level (some message))) =
                p.log fl os order reader ⟨cStr ewtsId, level, cStr message, clock⟩ :=
            hk.settled.ewtsNgenLog_eq os order reader clock ewtsId level message
          rw [htake]
          exact h.logCall hstart hk os order reader _
    | logPayload clock ewtsId a => exact hrecord clock ewtsId a
    | setEnv env =>
      refine ⟨hk.of_logger ?_ ⟨rfl, rfl, rfl, rfl⟩ rfl rfl, rfl, h.log, h.payload, h.others⟩
      exact hk.settled.of_same rfl ⟨rfl, rfl, rfl, rfl⟩ hk.settled.closed
  | entry e expand level message clock =>
    have htake : p.take fl order reader (os, .entry e expand level message clock) =
        (e.call expand level message clock).elim p (p.log fl os order reader) :=
      hk.settled.entry_call e os order reader expand level message clock
    rw [htake, Journals.take, Logger.delivery]
    cases e.call expand level message clock with
    | none => exact ⟨hk, h⟩
    | some c => exact h.logCall hstart hk os order reader c
  | payloadJson clock ewtsId message => exact hrecord clock ewtsId _
  | payloadStatus clock a => exact hrecord clock _ _

end Steps

/-! ## Runs -/

variable {fl} in
/-- A run keeps showing them. -/
theorem Process.Shows.run {p start : Process} {j : Journals F} (hstart : start.Opened)
    (hk : p.Kept start) (h : p.Shows fl start j) (order : HashOrder) (reader : Json.TreeReader)
    (inputs : List (Os × Input F)) :
    (runFrom (Process.take fl order reader) p inputs).Shows fl start
      (runFrom (Journals.take fl reader start.logger) j inputs) := by
  refine (runFrom_lockstep
    (R := fun (p : Process) (j : Journals F) => p.Kept start ∧ p.Shows fl start j) ?_ ⟨hk, h⟩).2
  exact fun p j i h => h.2.take hstart h.1 order reader i

section Runs

variable (os : Os) (order : HashOrder) (stamp : Timestamp) (env : Environ)
  (files : Text → Option Text)

/-- Initialisation chooses a directory and opens the unified log there, if it can. -/
theorem afterInit_cases : ∃ start : Process, ∃ dir full : Text,
    start.logger.logFile = none ∧ start.logger.payloadFile = none ∧ (∀ c ∈ dir, c ≠ 0) ∧
    (afterInit os order stamp env files = { start with
        logger := { start.logger with logFileDir := dir, logFilePath := full } } ∨
      afterInit os order stamp env files = { start with
        disk := start.disk.openTrunc (Stream.unified.path os start.env dir stamp)
        logger := { start.logger with
          logFileDir := dir
          logFilePath := full
          logFile := some ⟨Stream.unified.path os start.env dir stamp, 0⟩ } }) := by
  have hdir : resultsDir (afterInit os order stamp env files).env = resultsDir env :=
    (afterInit_paths order stamp files []).1
  rw [afterInit_env] at hdir
  obtain ⟨env', henv⟩ : ∃ env', env' =
      setEnvVars order (policyOf os order .fresh env) (envAtRead os order .fresh env) := ⟨_, rfl⟩
  have hnofile : (policyOf os order .fresh env).logFile = none := by
    unfold policyOf
    rw [Logger.readPolicy_eq]
    split <;> rfl
  have hnul : ∀ c ∈ logDirOf env' (resultsDir env), c ≠ 0 := by
    unfold logDirOf resultsDir getenv
    intro c hc
    split at hc <;> exact cStr_no_nul hc
  rw [afterInit_eq, ← henv]
  rw [← henv] at hdir
  refine ⟨⟨true, policyOf os order .fresh env, ∅, env', ⟨files, []⟩, []⟩,
    logDirOf env' (resultsDir env), ?_⟩
  have hpath : Stream.unified.path os env' (logDirOf env' (resultsDir env)) stamp =
      joinPath (logDirOf env' (resultsDir env))
        (logFileName os env' (resultsDir env) stamp (text "ngen")) := by
    rw [Stream.path, hdir]
    rfl
  have hwhole := cStr_path hnul (s := .unified) (by decide) os env' stamp
  unfold Process.setupLogFile
  split
  · exact ⟨[], hnofile, (policyOf_settled os order env).2.2, hnul, Or.inl rfl⟩
  · refine ⟨Stream.unified.path os env' (logDirOf env' (resultsDir env)) stamp, hnofile,
      (policyOf_settled os order env).2.2, hnul, ?_⟩
    simp only [openLog]
    rw [← hpath, hwhole]
    by_cases hopens : os.opens (Stream.unified.path os env' (logDirOf env' (resultsDir env)) stamp)
    · rw [if_pos hopens]
      exact Or.inr rfl
    · rw [if_neg hopens]
      refine Or.inl ?_
      simp only [hnofile]
      rfl

/-- It opens nothing else. -/
theorem shows_afterInit (hmode : (afterInit os order stamp env files).logger.splitLogsByModule =
    false) : (afterInit os order stamp env files).Opened ∧
      (afterInit os order stamp env files).Kept (afterInit os order stamp env files) ∧
      (afterInit os order stamp env files).Shows fl (afterInit os order stamp env files)
        (.start (afterInit os order stamp env files).env) := by
  have hkept : (afterInit os order stamp env files).Kept (afterInit os order stamp env files) :=
    ⟨settled_afterInit os order stamp env files, ⟨rfl, rfl, rfl, rfl⟩, hmode, rfl⟩
  obtain ⟨start, dir, full, hlog, hpayload, hnul, hstart | hstart⟩ :=
    afterInit_cases os order stamp env files
  · rw [hstart] at hkept ⊢
    refine ⟨⟨hnul, fun s hs => ?_⟩, hkept, rfl, ?_, ⟨hpayload, rfl⟩, fun other _ _ => rfl⟩
    · rw [hlog] at hs
      cases hs
    · simp only [hlog]
      exact ⟨rfl, (List.append_nil _).symm⟩
  · rw [hstart] at hkept ⊢
    refine ⟨⟨hnul, fun s hs => ?_⟩, hkept, rfl, ?_, ⟨hpayload, rfl⟩, fun other _ _ => rfl⟩
    · cases hs
      exact ⟨os, start.env, stamp, rfl⟩
    · exact ⟨rfl, _, rfl, rfl, Disk.atEnd_openTrunc ..⟩

end Runs

/-! ## A run -/

/-- A process with a log directory, at the default levels. -/
def sampleStart : Process :=
  afterInit (levelsOs []) insertionOrder default logDirEnv fun _ => none

/-- A warning over two lines, a status and a debug message. -/
def sampleInputs : List (Os × Input SampleFloat) :=
  [(levelsOs [], .entry (.format (text "PET")) (fun _ => none) 30 (text "dry\nsoil") default),
    (levelsOs [], .payloadStatus default
      ⟨some (text "PET"), some (text "IN_PROGRESS"), .half, none, some (text "NULL")⟩),
    (levelsOs [], .entry (.bridge (text "CFE")) (fun _ => none) 10 (text "quiet") default)]

theorem sample_logFile :
    sampleStart.logger.logFile = some ⟨text "/run/ngen_20260618T181315.log", 0⟩ := by
  rfl

/-- The debug message is filtered. -/
theorem sample_accepted : sampleStart.accepted SampleFloat.floats .flat sampleInputs =
    ⟨sampleStart.env, [⟨text "PET", 30, text "dry\nsoil", default⟩],
      some (text "/run/ngen_payload_20260618T181315.log",
        [⟨default, text "PET", ⟨text "IN_PROGRESS", .half, [], text "NULL"⟩⟩])⟩ := by
  rfl

end Ewts.Ngen
