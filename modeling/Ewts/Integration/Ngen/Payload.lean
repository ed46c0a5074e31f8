import Ewts.Core.Floats
import Ewts.Core.Json.PropertyTree
import Ewts.Core.Json.Writer
import Ewts.Core.Search
import Ewts.Integration.Ngen.Init

/-!
# Payload records of ngen

`LogPayload` spells its fields as one JSON object between two sentinels and appends
the record to a file of its own. Its other overload takes such an object apart first.
-/

namespace Ewts.Ngen

open Json

/-- `kPayloadBeginSentinel`. -/
def kPayloadBeginSentinel : Text := text "<MSG_DATA>"

/-- `kPayloadEndSentinel`. -/
def kPayloadEndSentinel : Text := text "</MSG_DATA>"

/-- `PAYLOAD_NULL`. -/
def payloadNull : Text := text "NULL"

/-- `PAYLOAD_ERROR`. -/
def payloadError : Text := text "ERROR"

/-- One character of `EscapeJson`. -/
def escapeChar (c : CodePoint) : Text :=
  if c = ch '"' then text "\\\""
  else if c = ch '\\' then text "\\\\"
  else if c = ch '\n' then text "\\n"
  else if c = ch '\r' then text "\\r"
  else if c = ch '\t' then text "\\t"
  else [c]

/-- `EscapeJson(s)`. -/
def escapeJson (s : Text) : Text := s.flatMap escapeChar

/-- The stream `json` of `LogPayload` with the flag `first`. -/
structure JsonStream where
  json : Text
  first : Bool

/-- The part that `add_string` and `add_double` share. -/
def JsonStream.add (st : JsonStream) (key written : Text) : JsonStream where
  json := (if st.first then st.json else st.json ++ [ch ',']) ++
    (ch '"' :: key ++ [ch '"', ch ':']) ++ written
  first := false

/-- What `add_string` writes behind the colon. -/
def writtenString (value : Text) : Text :=
  if value = [] ∨ value = payloadNull then text "null"
  else ch '"' :: escapeJson value ++ [ch '"']

/-- `add_string(key, value)`. -/
def JsonStream.addString (st : JsonStream) (key value : Text) : JsonStream :=
  st.add key (writtenString value)

variable {F : Type} (fl : Floats F)

/-- What `add_double` writes behind the colon. -/
def writtenDouble (value : F) : Text := if fl.negative value then text "null" else fl.print value

/-- `add_double(key, value)`. -/
def JsonStream.addDouble (st : JsonStream) (key : Text) (value : F) : JsonStream :=
  st.add key (writtenDouble fl value)

/-- The arguments of a field-based call. -/
structure PayloadFields (F : Type) where
  status : Text
  prog : F
  msg : Text
  modnm : Text

/-- The JSON object of `LogPayload`. -/
def payloadJson (a : PayloadFields F) : Text :=
  (((((JsonStream.mk [ch '{'] true).addString (text "status") a.status).addDouble fl (text "prog")
    a.prog).addString (text "msg") a.msg).addString (text "modnm") a.modnm).json ++ [ch '}']

/-- The object in the layout of the JSON writer: no gaps. -/
theorem payloadJson_eq (a : PayloadFields F) : payloadJson fl a =
    renderObject [] [(text "status", writtenString a.status),
      (text "prog", writtenDouble fl a.prog), (text "msg", writtenString a.msg),
      (text "modnm", writtenString a.modnm)] := by
  simp [payloadJson, JsonStream.addString, JsonStream.addDouble, JsonStream.add, renderObject,
    renderMembers, renderMember]

/-- The clock readings of one call: for a line and for a file name. -/
structure Clock where
  line : Timestamp
  file : Timestamp
  deriving Inhabited

/-- `prefix + sentinel + json + sentinel + "\n"`. -/
def payloadRecord (now : Timestamp) (moduleName : Text) (a : PayloadFields F) : Text :=
  now.iso ++ ch ' ' :: padEwtsId moduleName ++ ch ' ' :: levelToFixedString 60 ++ [ch ' '] ++
    kPayloadBeginSentinel ++ payloadJson fl a ++ kPayloadEndSentinel ++ [ch '\n']

/-- `OpenPayloadFileIfNeeded()`: afterwards the stream tells whether it returned true. -/
def Process.openPayloadFileIfNeeded (p : Process) (os : Os) (order : HashOrder) (clock : Clock) :
    Process :=
  if p.logger.payloadFile.isSome then p
  else
    let q := p.initIfNeeded os order clock.file
    if q.logger.loggingEnabled = false ∨ q.logger.logFileDir = [] then q
    else
      let path := joinPath q.logger.logFileDir
        (logFileName os q.env (resultsDir q.env) clock.file (text "ngen_payload"))
      { q with
        disk := (openLog os q.disk path).1
        logger := { q.logger with
          payloadFilePath := path
          payloadFile := (openLog os q.disk path).2 } }

/-- The id that a record carries; a null id counts as an empty one. -/
def Process.recordId (p : Process) (ewtsId : Text) : Text :=
  if cStr ewtsId = [] then p.logger.ewtsId else cStr ewtsId

/-- Write through the payload stream. -/
def Process.writePayload (p : Process) (s : OutStream) (record : Text) : Process :=
  { p with
    disk := (p.disk.write s record).1
    logger := { p.logger with payloadFile := some (p.disk.write s record).2 } }

/-- `LogPayload(ewts_id, status, prog, msg, modnm)`. -/
def Process.logPayload (p : Process) (os : Os) (order : HashOrder) (clock : Clock)
    (ewtsId : Text) (a : PayloadFields F) : Process :=
  let q := p.openPayloadFileIfNeeded os order clock
  match q.logger.payloadFile with
  | none => q
  | some s => q.writePayload s (payloadRecord fl clock.line (q.recordId ewtsId) a)

/-! ## Records from JSON -/

/-- `MissingSentinelMessage(sentinel)`. -/
def missingSentinelMessage (sentinel : Text) : Text :=
  text "Malformed payload: missing sentinel " ++ sentinel

/-- `ExtractJsonPayload(message)`: the JSON text or the error message. -/
def extractJsonPayload (message : Text) : Except Text Text :=
  match message.dropInfix? kPayloadBeginSentinel, message.dropInfix? kPayloadEndSentinel with
  | none, none => .ok message
  | some _, none => .error (missingSentinelMessage kPayloadEndSentinel)
  | none, some _ => .error (missingSentinelMessage kPayloadBeginSentinel)
  | some (_, behind), some _ =>
    match behind.dropInfix? kPayloadEndSentinel with
    | none => .error (missingSentinelMessage kPayloadEndSentinel)
    | some (json, _) => .ok json

/-- The fields of a record about a malformed payload. -/
def malformedFields (prog : F) (msg : Text) : PayloadFields F := ⟨payloadError, prog, msg, []⟩

/-- `pt.get<double>(key, default)`: the default also when the data is no number. -/
def getDouble (kvs : List (Text × Text)) (key : Text) (dflt : F) : F :=
  ((treeGet kvs key).bind fl.ofStream).getD dflt

/-- The fields that the JSON overload passes on. Reading with defaults never throws, so
a tree that was read always yields fields. -/
def fieldsOfTree (kvs : List (Text × Text)) : PayloadFields F where
  status := (treeGet kvs (text "status")).getD []
  prog := getDouble fl kvs (text "prog") fl.minusOne
  msg := (treeGet kvs (text "msg")).getD []
  modnm := (treeGet kvs (text "modnm")).getD []

/-- The fields that `LogPayload(ewts_id, json_message)` logs for a message. -/
def fieldsOfMessage (reader : TreeReader) : Option Text → PayloadFields F
  | none => malformedFields fl.zero (text "Malformed payload: payload message is null")
  | some message =>
    match extractJsonPayload (cStr message) with
    | .error e => malformedFields fl.minusOne e
    | .ok json => match reader.read json with
      | .error e => malformedFields fl.minusOne (text "Malformed payload JSON: " ++ e)
      | .ok kvs => fieldsOfTree fl kvs

/-- `LogPayload(ewts_id, json_message)`. -/
def Process.logPayloadJson (p : Process) (os : Os) (order : HashOrder) (reader : TreeReader)
    (clock : Clock) (ewtsId : Text) (message : Option Text) : Process :=
  p.logPayload fl os order clock ewtsId (fieldsOfMessage fl reader message)

/-! ## The open payload file -/

/-- The payload file is open and its stream stands at the end of `content`. -/
def Process.PayloadOpen (p : Process) (path content : Text) : Prop :=
  ∃ s, p.logger.payloadFile = some s ∧ s.path = path ∧ s.AtEnd p.disk content

/-- An unused process whose payload file was just opened. -/
def Process.payloadStart (path : Text) : Process :=
  { Process.start (fun _ => none) (fun _ => none) with
    disk := Disk.openTrunc ⟨fun _ => none, []⟩ path
    logger := { Logger.fresh with payloadFile := some ⟨path, 0⟩ } }

theorem Process.payloadOpen_start (path : Text) : (Process.payloadStart path).PayloadOpen path [] :=
  ⟨⟨path, 0⟩, rfl, rfl, Disk.atEnd_openTrunc _ path⟩

/-- The open file has one content. -/
theorem Process.PayloadOpen.content_unique {p : Process} {path content content' : Text}
    (h : p.PayloadOpen path content) (h' : p.PayloadOpen path content') : content = content' := by
  obtain ⟨s, hs, rfl, hend⟩ := h
  obtain ⟨s', hs', _, hend'⟩ := h'
  have heq : s = s' := Option.some.inj (hs.symm.trans hs')
  subst heq
  exact Option.some.inj (hend.file.symm.trans hend'.file)

/-- Writing through the payload stream appends. -/
theorem Process.PayloadOpen.write {p : Process} {s : OutStream} {content : Text}
    (hend : s.AtEnd p.disk content) (record : Text) :
    (p.writePayload s record).PayloadOpen s.path (content ++ record) :=
  ⟨(p.disk.write s record).2, rfl, rfl, hend.write record⟩

/-- With the payload file open a call appends exactly its record. -/
theorem Process.PayloadOpen.logPayload {p : Process} {path content : Text}
    (h : p.PayloadOpen path content) (os : Os) (order : HashOrder) (clock : Clock) (ewtsId : Text)
    (a : PayloadFields F) : (p.logPayload fl os order clock ewtsId a).PayloadOpen path
      (content ++ payloadRecord fl clock.line (p.recordId ewtsId) a) := by
  obtain ⟨s, hs, rfl, hend⟩ := h
  have hopen : p.openPayloadFileIfNeeded os order clock = p := by
    rw [openPayloadFileIfNeeded, hs, Option.isSome_some, if_pos rfl]
  have hlog : p.logPayload fl os order clock ewtsId a =
      p.writePayload s (payloadRecord fl clock.line (p.recordId ewtsId) a) := by
    simp only [Process.logPayload, hopen, hs]
  rw [hlog]
  exact .write hend _

end Ewts.Ngen
