import Ewts.Core.FileSystem
import Ewts.Runtime.Python.Start

/-!
# The file sink of the Python logger

A logger with a log directory appends status records to its payload file and all others to
its log file. It never creates the directory: while the directory is missing, records are
lost.
-/

namespace Ewts.Python

/-- The line of an output for a file. -/
def Output.line : Output → Option Text
  | .append _ s => some s
  | .bridge .. | .print _ => none

/-- Carry out what a record becomes: its file is opened once, and written line by line. -/
def carryOut (fs : FileSystem) (outputs : List Output) : FileSystem :=
  match outputs with
  | .append path s :: rest => fs.writeLines path (s :: rest.filterMap Output.line)
  | _ => fs

/-- A record that reaches the sink. -/
structure Record where
  now : Timestamp
  level : Int
  message : Text

namespace Record

/-- Whether a record is a status. -/
def isStatus (r : Record) : Bool := r.level = 60

/-- Whether a record passes the filter of a logger. -/
def Passes (lg : EwtsLogger) (r : Record) : Prop := r.isStatus = true ∨ lg.minLevel ≤ r.level

/-- The lines of a record behind its prefix. -/
def lines (u : Unicode) (ewtsId : Text) (r : Record) : List Text :=
  (splitLines r.message).map (prefixed (formatPrefix u r.now ewtsId r.level))

/-- The file that a record belongs to. -/
def file (log payload : Text) (r : Record) : Text := if r.isStatus then payload else log

theorem lines_ne_nil (u : Unicode) (ewtsId : Text) (r : Record) :
    r.lines u ewtsId ≠ [] ∧ ∀ line ∈ r.lines u ewtsId, line ≠ [] := by
  constructor
  · exact fun h => splitLines_ne_nil r.message (List.map_eq_nil_iff.mp h)
  · intro line hline
    obtain ⟨l, _, rfl⟩ := List.mem_map.mp hline
    simp [prefixed]

end Record

/-- The files after a record. -/
def logRecord (u : Unicode) (lg : EwtsLogger) (fs : FileSystem) (r : Record) : FileSystem :=
  carryOut fs (lg.log u r.now r.level r.message)

theorem carryOut_append {fs : FileSystem} {path : Text} {lines : List Text} (h : lines ≠ []) :
    carryOut fs (lines.map (.append path)) = fs.writeLines path lines := by
  cases lines with
  | nil => exact absurd rfl h
  | cons line lines =>
    rw [List.map_cons, carryOut, List.filterMap_map]
    congr 2
    exact List.filterMap_some ..

section Sink

variable (u : Unicode) {lg : EwtsLogger} {log payload : Text}

/-- A record that passes is written as a block of lines to its file. -/
theorem logRecord_eq (hbridge : lg.bridge = false) (hlog : lg.logPath = some log)
    (hpayload : lg.payloadLogPath = some payload) (fs : FileSystem) {r : Record}
    (hpass : r.Passes lg) : logRecord u lg fs r =
      FileSystem.emit (Record.file log payload) (Record.lines u lg.ewtsId) fs r := by
  have hpass' : r.level = 60 ∨ lg.minLevel ≤ r.level := by
    simpa only [Record.Passes, Record.isStatus, decide_eq_true_eq] using hpass
  have houtputs : lg.log u r.now r.level r.message =
      (r.lines u lg.ewtsId).map (.append (r.file log payload)) := by
    rw [EwtsLogger.log, write_standalone u r.now r.message hbridge hpass', Record.lines,
      List.map_map]
    simp only [hlog, hpayload, Option.getD_some, Record.file, Record.isStatus, decide_eq_true_eq]
    rfl
  rw [logRecord, houtputs, carryOut_append (r.lines_ne_nil u lg.ewtsId).1]
  rfl

theorem runFrom_logRecord (hbridge : lg.bridge = false) (hlog : lg.logPath = some log)
    (hpayload : lg.payloadLogPath = some payload) (fs : FileSystem) {records : List Record}
    (hpass : ∀ r ∈ records, r.Passes lg) :
    runFrom (logRecord u lg) fs records =
      runFrom (FileSystem.emit (Record.file log payload) (Record.lines u lg.ewtsId)) fs
        records :=
  List.foldl_ext _ _ fs fun fs r hr => logRecord_eq u hbridge hlog hpayload fs (hpass r hr)

end Sink

/-- The payload file is not the log file. -/
theorem payloadLogPath_ne {logPath payloadPath : Path}
    (h : payloadLogPath logPath = some payloadPath) : payloadPath.str ≠ logPath.str := by
  apply Path.str_withName_ne h
  intro heq
  have hlen := congrArg List.length heq
  simp only [Path.suffix, List.length_append, List.length_drop] at hlen
  have hmark : (text "_payload").length = 8 := by decide
  omega

section Files

variable {log payload : Text} (hne : payload ≠ log)
include hne

theorem Record.file_eq_log_iff (r : Record) : r.file log payload = log ↔ r.isStatus = false := by
  unfold Record.file
  cases r.isStatus <;> simp [hne]

theorem Record.file_eq_payload_iff (r : Record) :
    r.file log payload = payload ↔ r.isStatus = true := by
  unfold Record.file
  cases r.isStatus <;> simp [hne.symm]

end Files

/-- After a run the files hold, in order, the lines of the records that belong to them. -/
structure Complete (u : Unicode) (lg : EwtsLogger) (log payload : Text) (records : List Record)
    (before after : FileSystem) : Prop where
  log : after.content log = before.content log ++
    (records.filter fun r => !r.isStatus).flatMap fun r => (r.lines u lg.ewtsId).flatten
  payload : after.content payload = before.content payload ++
    (records.filter Record.isStatus).flatMap fun r => (r.lines u lg.ewtsId).flatten

/-- The two files of a logger are distinct, and a run completes them exactly when each record
is UTF-8 text and its file could be opened for appending before the run. -/
theorem file_sink_iff (u : Unicode) (host : Host) (overrides : Overrides) (due : Bool)
    (id : Text) (p : Process) {o : EwtsObject}
    (ho : o ∈ ((EwtsObject.init u host overrides due id).run p).1) {log : Text}
    (hlog : o.logPath = some log) (pyLevel : Int) (records : List Record)
    (hpass : ∀ r ∈ records, r.Passes (o.logger pyLevel)) (fs : FileSystem) :
    ∃ payload, o.payloadLogPath = some payload ∧ payload ≠ log ∧
      (Complete u (o.logger pyLevel) log payload records fs
          (runFrom (logRecord u (o.logger pyLevel)) fs records) ↔
        ∀ r ∈ records, fs.opens (r.file log payload) = true ∧
          ∀ line ∈ r.lines u o.ewtsId, line.Scalar) := by
  have hstarted : Py.Returns (EwtsObject.init u host overrides due id)
      fun o => ∃ cfg, EwtsObject.Started u host id cfg o :=
    Py.Returns.then fun cfg =>
      (EwtsObject.start_started u host due id cfg).mono fun _ h => ⟨cfg, h⟩
  obtain ⟨cfg, ho⟩ := hstarted.value p o ho
  obtain ⟨hbridge, logPath, payloadPath, rfl, hpayload, hpayloadPath⟩ := ho.paths hlog
  have hne := payloadLogPath_ne hpayload
  refine ⟨payloadPath.str, hpayloadPath, hne, ?_⟩
  have hcomplete := FileSystem.complete_iff (Record.file logPath.str payloadPath.str)
    (Record.lines u o.ewtsId) (Record.lines_ne_nil u o.ewtsId) fs records
  have hlogFile := Record.file_eq_log_iff hne
  have hpayloadFile := Record.file_eq_payload_iff hne
  have hfilterLog : (records.filter fun r => r.file logPath.str payloadPath.str = logPath.str) =
      records.filter fun r => !r.isStatus := by
    simp only [hlogFile, Bool.decide_eq_false]
  have hfilterPayload :
      (records.filter fun r => r.file logPath.str payloadPath.str = payloadPath.str) =
        records.filter Record.isStatus := by
    simp only [hpayloadFile, Bool.decide_eq_true]
  rw [runFrom_logRecord u hbridge hlog hpayloadPath fs hpass]
  have hboth := and_congr (hcomplete logPath.str) (hcomplete payloadPath.str)
  rw [hfilterLog, hfilterPayload] at hboth
  constructor
  · rintro ⟨hl, hp⟩ r hr
    obtain ⟨hl', hp'⟩ := hboth.mp ⟨hl, hp⟩
    cases hstatus : r.isStatus with
    | false =>
      have hfile := (hlogFile r).mpr hstatus
      rw [hfile]
      exact hl' r hr hfile
    | true =>
      have hfile := (hpayloadFile r).mpr hstatus
      rw [hfile]
      exact hp' r hr hfile
  · intro h
    obtain ⟨hl, hp⟩ := hboth.mpr
      ⟨fun r hr hfile => hfile ▸ h r hr, fun r hr hfile => hfile ▸ h r hr⟩
    exact ⟨hl, hp⟩

/-- `TROUTE` logs to `t-route.log` below `/run`. -/
def runOverrides : Overrides := fun _ =>
  some ⟨none, none, some (text "/run"), some (text "t-route.log"), none⟩

/-- A host with an empty environment. -/
def plainHost : Host where
  process := ⟨fun _ => none, fun _ => none⟩
  now := default
  home := id
  loads _ := false
  loadError _ := []
  encodes _ := true

/-- The logger that starts there. -/
def runObject : EwtsObject where
  ewtsId := text "TROUTE"
  bridge := false
  logPath := some (text "/run/t-route.log")
  payloadLogPath := some (text "/run/t-route_payload.log")
  minLevel := 20

/-- A message of two lines, and a status. -/
def runRecords : List Record :=
  [⟨default, 20, text "a\nb"⟩, ⟨default, 60, text "done"⟩]

theorem runObject_starts :
    ((EwtsObject.init .ascii plainHost runOverrides true (text "TROUTE")).run
      plainHost.process).1 = some runObject := rfl

theorem file_sink_run : Complete .ascii (runObject.logger 20) (text "/run/t-route.log")
    (text "/run/t-route_payload.log") runRecords ⟨fun dir => dir = text "/run", fun _ => none⟩
    (runFrom (logRecord .ascii (runObject.logger 20))
      ⟨fun dir => dir = text "/run", fun _ => none⟩ runRecords) := by
  have hpass : ∀ r ∈ runRecords, r.Passes (runObject.logger 20) := by
    unfold Record.Passes
    decide
  obtain ⟨payload, hpayload, _, hiff⟩ := file_sink_iff .ascii plainHost runOverrides true
    (text "TROUTE") plainHost.process runObject_starts rfl 20 runRecords hpass
    ⟨fun dir => dir = text "/run", fun _ => none⟩
  cases hpayload
  exact hiff.mpr (by decide)

/-- While `/run` does not exist all records are lost. -/
theorem file_sink_without_directory :
    ((EwtsObject.init .ascii plainHost runOverrides true (text "TROUTE")).run
      plainHost.process).1 = some runObject ∧
    ¬ Complete .ascii (runObject.logger 20) (text "/run/t-route.log")
      (text "/run/t-route_payload.log") runRecords ⟨fun _ => false, fun _ => none⟩
      (runFrom (logRecord .ascii (runObject.logger 20)) ⟨fun _ => false, fun _ => none⟩
        runRecords) := by
  refine ⟨rfl, fun h => ?_⟩
  have hlog := h.log
  revert hlog
  decide

end Ewts.Python
