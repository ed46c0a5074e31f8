import Ewts.Core.Lines
import Ewts.Integration.Ngen.Payload

/-!
# Log calls of ngen

A call is filtered by the level of its own module, split into lines and written to the
unified file or to a file of its module, which is opened at the first such call.
-/

namespace Ewts.Ngen

/-- A call of `Logger::Log(moduleName, messageLevel, message)` with its clock readings. -/
structure Call where
  moduleName : Text
  messageLevel : Int
  message : Text
  clock : Clock

/-- The level that messages of a module must reach: the level of the first registry key
of its id, the logger's own level for its own id, `INFO` otherwise. -/
def Logger.effectiveLevel (lg : Logger) (moduleName : Text) : LogLevel :=
  match (firstEntry moduleName).bind fun e =>
      if e.key = [] then none else lg.moduleLogLevels.lookup e.key with
  | some level => level
  | none => if moduleName = lg.ewtsId then lg.logLevel else .INFO

/-- The filter of a call. -/
def Logger.passes (lg : Logger) (c : Call) : Bool :=
  (lg.effectiveLevel c.moduleName).value ≤ c.messageLevel

/-- `std::getline` on the message until it fails; `line` is what was read of a line. -/
def getlinesFrom (line : Text) : Text → List Text
  | [] => if line = [] then [] else [line]
  | c :: s => if c = ch '\n' then line :: getlinesFrom [] s else getlinesFrom (line ++ [c]) s

/-- The lines of a message. -/
def getlines (message : Text) : List Text := getlinesFrom [] message

/-- What was read of a line stands in front of its rest. -/
theorem getlinesFrom_eq {line : Text} (h : ch '\n' ∉ line) (s : Text) :
    getlinesFrom line s = physicalLines (line ++ s) := by
  induction s generalizing line with
  | nil => rw [getlinesFrom, List.append_nil, physicalLines_of_not_mem h]
  | cons c s ih =>
    rw [getlinesFrom]
    split
    · rename_i hc
      rw [hc, physicalLines_cons h, ih List.not_mem_nil, List.nil_append]
    · rename_i hc
      have hline : ch '\n' ∉ line ++ [c] := by
        rw [List.mem_append, List.mem_singleton, not_or]
        exact ⟨h, Ne.symm hc⟩
      rw [ih hline, List.append_assoc, List.singleton_append]

/-- `getline` reads the lines. -/
theorem getlines_eq (message : Text) : getlines message = physicalLines message :=
  getlinesFrom_eq List.not_mem_nil message

/-- A carriage return at the end of a line is dropped. -/
def dropReturn (s : Text) : Text := if s.getLast? = some (ch '\r') then s.dropLast else s

/-- `should_log_line(s)`: the line without its return, unless it is blank. -/
def shouldLogLine (s : Text) : Option Text :=
  if (dropReturn s).any (fun c => c ≠ ch ' ' && c ≠ ch '\t') then some (dropReturn s) else none

/-- `prefix`. -/
def Call.logPrefix (c : Call) : Text :=
  c.clock.line.iso ++ ch ' ' :: padEwtsId c.moduleName ++
    ch ' ' :: levelToFixedString c.messageLevel

/-- The lines that a call writes, whichever file they go to. -/
def Call.lines (c : Call) : List Text :=
  ((getlines c.message).filterMap shouldLogLine).map fun line =>
    c.logPrefix ++ ch ' ' :: line ++ [ch '\n']

/-- The path of a module's file in split mode. -/
def Process.splitPath (p : Process) (os : Os) (stamp : Timestamp) (moduleName : Text) : Text :=
  joinPath p.logger.logFileDir
    (logFileName os p.env (resultsDir p.env) stamp (toLower moduleName))

/-- Open the file of a module when the static map has no entry for it. -/
def Process.openSplitFile (p : Process) (os : Os) (stamp : Timestamp) (moduleName : Text) :
    Process :=
  match p.splitLogFiles.lookup moduleName with
  | some _ => p
  | none =>
    { p with
      disk := (openLog os p.disk (p.splitPath os stamp moduleName)).1
      splitLogFiles := p.splitLogFiles.insert moduleName
        (openLog os p.disk (p.splitPath os stamp moduleName)).2 }

/-- Write to the unified file, or to standard output when it is not open. -/
def Process.writeLog (p : Process) (lines : List Text) : Process :=
  match p.logger.logFile with
  | some s =>
    { p with
      disk := (p.disk.writeAll s lines).1
      logger := { p.logger with logFile := some (p.disk.writeAll s lines).2 } }
  | none => { p with stdout := p.stdout ++ lines.flatten }

/-- Write to the file of a module. -/
def Process.writeSplit (p : Process) (moduleName : Text) (s : OutStream) (lines : List Text) :
    Process :=
  { p with
    disk := (p.disk.writeAll s lines).1
    splitLogFiles := p.splitLogFiles.insert moduleName (some (p.disk.writeAll s lines).2) }

/-- The output of a call that passed the filter. -/
def Process.emit (p : Process) (os : Os) (c : Call) : Process :=
  if p.logger.splitLogsByModule then
    let q := p.openSplitFile os c.clock.file c.moduleName
    match q.splitLogFiles.lookup c.moduleName with
    | some (some s) => q.writeSplit c.moduleName s c.lines
    | _ => q.writeLog c.lines
  else p.writeLog c.lines

/-- Written lines move the log file and change nothing else of the logger. -/
theorem Process.writeLog_frame (p : Process) (lines : List Text) :
    (p.writeLog lines).initialized = p.initialized ∧
      ∃ s, (p.writeLog lines).logger = { p.logger with logFile := s } := by
  unfold Process.writeLog
  split
  · exact ⟨rfl, _, rfl⟩
  · exact ⟨rfl, p.logger.logFile, rfl⟩

/-- Standard records leave the policy and the payload stream alone. -/
theorem Process.emit_frame (p : Process) (os : Os) (c : Call) :
    (p.emit os c).initialized = p.initialized ∧
      ∃ s, (p.emit os c).logger = { p.logger with logFile := s } := by
  unfold Process.emit
  split
  · have hopened : (p.openSplitFile os c.clock.file c.moduleName).initialized = p.initialized ∧
        (p.openSplitFile os c.clock.file c.moduleName).logger = p.logger := by
      unfold Process.openSplitFile
      split <;> exact ⟨rfl, rfl⟩
    simp only
    split
    · exact ⟨hopened.1, p.logger.logFile, hopened.2⟩
    · rw [← hopened.1, ← hopened.2]
      exact Process.writeLog_frame _ c.lines
  · exact p.writeLog_frame c.lines

/-! ## Where lines go -/

/-- Before a call writes its lines the file of its module is open, or was refused. -/
def Process.prepared (p : Process) (os : Os) (c : Call) : Process :=
  if p.logger.splitLogsByModule then p.openSplitFile os c.clock.file c.moduleName else p

/-- The stream that gets the lines of a module; without one they go to standard output. -/
def Process.sink (p : Process) (moduleName : Text) : Option OutStream :=
  match p.logger.splitLogsByModule, p.splitLogFiles.lookup moduleName with
  | true, some (some s) => some s
  | _, _ => p.logger.logFile

/-- A text was written to a stream, or to standard output, and nothing else was written. At the
end of its file a stream appends. -/
def Process.Wrote (p q : Process) (t : Text) : Option OutStream → Prop
  | some s => q.stdout = p.stdout ∧ q.disk = p.disk.put s t ∧
      ∀ content, s.AtEnd p.disk content → q.disk.files s.path = some (content ++ t)
  | none => q.stdout = p.stdout ++ t ∧ q.disk = p.disk

/-- No written line is empty. -/
theorem Call.lines_ne_nil (c : Call) : ∀ line ∈ c.lines, line ≠ [] := by
  intro line hline
  obtain ⟨_, _, rfl⟩ := List.mem_map.mp hline
  exact List.append_ne_nil_of_right_ne_nil _ (List.cons_ne_nil _ _)

/-- Lines that went through a stream. -/
theorem Process.Wrote.writeAll {p q : Process} {s : OutStream} {lines : List Text}
    (hne : ∀ line ∈ lines, line ≠ []) (hout : q.stdout = p.stdout)
    (hdisk : q.disk = (p.disk.writeAll s lines).1) : p.Wrote q lines.flatten (some s) := by
  rw [Disk.writeAll_eq_put _ _ hne] at hdisk
  refine ⟨hout, hdisk, fun content hend => ?_⟩
  rw [hdisk]
  exact hend.put _

/-- The unified file gets the lines, or standard output does. -/
theorem Process.writeLog_wrote (p : Process) {lines : List Text}
    (hne : ∀ line ∈ lines, line ≠ []) :
    p.Wrote (p.writeLog lines) lines.flatten p.logger.logFile := by
  unfold Process.writeLog
  cases p.logger.logFile with
  | none => exact ⟨rfl, rfl⟩
  | some s => exact .writeAll hne rfl rfl

/-- A call that passed the filter writes its lines to the stream of its module. -/
theorem Process.emit_wrote (p : Process) (os : Os) (c : Call) :
    (p.prepared os c).Wrote (p.emit os c) c.lines.flatten
      ((p.prepared os c).sink c.moduleName) := by
  have hlogger : (p.prepared os c).logger = p.logger := by
    unfold Process.prepared Process.openSplitFile
    split
    · split <;> rfl
    · rfl
  cases hsplit : p.logger.splitLogsByModule with
  | false =>
    have hprepared : p.prepared os c = p := by
      rw [Process.prepared, hsplit, if_neg Bool.false_ne_true]
    rw [hprepared, Process.emit, hsplit, if_neg Bool.false_ne_true, Process.sink, hsplit]
    exact p.writeLog_wrote c.lines_ne_nil
  | true =>
    have hprepared : p.openSplitFile os c.clock.file c.moduleName = p.prepared os c := by
      rw [Process.prepared, hsplit, if_pos rfl]
    simp only [Process.emit, hsplit, ite_true, hprepared, Process.sink, hlogger]
    rw [← hlogger]
    cases (p.prepared os c).splitLogFiles.lookup c.moduleName with
    | none => exact Process.writeLog_wrote _ c.lines_ne_nil
    | some file =>
      cases file with
      | none => exact Process.writeLog_wrote _ c.lines_ne_nil
      | some s => exact .writeAll c.lines_ne_nil rfl rfl

variable {F : Type} (fl : Floats F)

/-- `Logger::Log(moduleName, messageLevel, message)`. -/
def Process.log (p : Process) (os : Os) (order : HashOrder) (reader : Json.TreeReader) (c : Call) :
    Process :=
  let q := p.initIfNeeded os order c.clock.file
  if q.logger.loggingEnabled = false then q
  else if c.messageLevel = LogLevel.STATUS.value then
    q.logPayloadJson fl os order reader c.clock c.moduleName (some c.message)
  else if q.logger.passes c then q.emit os c
  else q

/-- So does a call of the logger, unless it is filtered or a status. -/
theorem Process.log_wrote {p : Process} {os : Os} {order : HashOrder} {c : Call}
    (henabled : (p.initIfNeeded os order c.clock.file).logger.loggingEnabled = true)
    (hpass : (p.initIfNeeded os order c.clock.file).logger.passes c = true)
    (hstatus : c.messageLevel ≠ LogLevel.STATUS.value) (reader : Json.TreeReader) :
    let q := (p.initIfNeeded os order c.clock.file).prepared os c
    q.Wrote (p.log fl os order reader c) c.lines.flatten (q.sink c.moduleName) := by
  intro q
  have hlog : p.log fl os order reader c = (p.initIfNeeded os order c.clock.file).emit os c := by
    simp only [Process.log, henabled, Bool.true_eq_false, hstatus, hpass, ite_true, ite_false]
  rw [hlog]
  exact Process.emit_wrote _ os c

/-- A sequence of calls. -/
def Process.logAll (p : Process) (os : Os) (order : HashOrder) (reader : Json.TreeReader) :
    List Call → Process
  | [] => p
  | c :: cs => (p.log fl os order reader c).logAll os order reader cs

/-- `ewts_ngen_log(ewts_id, level, message)` with its null checks. -/
def Process.ewtsNgenLog (p : Process) (os : Os) (order : HashOrder) (reader : Json.TreeReader)
    (clock : Clock) (ewtsId : Option Text) (level : Int) (message : Option Text) : Process :=
  match ewtsId, message with
  | some ewtsId, some message =>
    if level = LogLevel.STATUS.value then
      p.logPayloadJson fl os order reader clock ewtsId (some message)
    else p.log fl os order reader ⟨cStr ewtsId, level, cStr message, clock⟩
  | _, _ => p

/-! ## Other overloads -/

/-- `Logger::Log(moduleName, messageLevel, message, ..)`: the filter comes first. -/
def Process.logFormat (p : Process) (os : Os) (order : HashOrder) (reader : Json.TreeReader)
    (expand : Text → Option Text) (clock : Clock) (moduleName : Text) (messageLevel : Int)
    (message : Option Text) : Process :=
  match message with
  | none => p
  | some message =>
    let q := p.initIfNeeded os order clock.file
    if q.logger.loggingEnabled = false then q
    else if messageLevel < (q.logger.effectiveLevel moduleName).value then q
    else match vsnprintf expand (cStr message) with
      | none => q
      | some buf => q.log fl os order reader ⟨moduleName, messageLevel, buf, clock⟩

/-- `Logger::Log(messageLevel, message, ..)`: it compares with the cached level. -/
def Process.logLevelFormat (p : Process) (os : Os) (order : HashOrder) (reader : Json.TreeReader)
    (expand : Text → Option Text) (clock : Clock) (messageLevel : Int) (message : Option Text) :
    Process :=
  match message with
  | none => p
  | some message =>
    let q := p.initIfNeeded os order clock.file
    if q.logger.loggingEnabled = false then q
    else if messageLevel < q.logger.logLevel.value then q
    else match vsnprintf expand (cStr message) with
      | none => q
      | some buf => q.log fl os order reader ⟨q.logger.ewtsId, messageLevel, buf, clock⟩

/-- `Logger::Log(messageLevel, message)`. -/
def Process.logLevelMessage (p : Process) (os : Os) (order : HashOrder)
    (reader : Json.TreeReader) (clock : Clock) (messageLevel : Int) (message : Text) : Process :=
  p.log fl os order reader ⟨p.logger.ewtsId, messageLevel, message, clock⟩

/-- `Logger::Log(message, messageLevel)`. -/
def Process.logMessage (p : Process) (os : Os) (order : HashOrder) (reader : Json.TreeReader)
    (clock : Clock) (message : Text) (messageLevel : Int) : Process :=
  p.log fl os order reader ⟨p.logger.ewtsId, messageLevel, message, clock⟩

end Ewts.Ngen
