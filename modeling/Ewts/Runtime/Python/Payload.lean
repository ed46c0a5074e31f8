import Ewts.Core.Floats
import Ewts.Core.Search
import Ewts.Runtime.Python.Json

/-!
# Structured payloads

`Payload` writes itself as one JSON object between two sentinels, and
`payload_of_log_msg` finds such an object in a log message and reads it back.
-/

namespace Ewts.Python

open Json

/-- `MSG_PAYLOAD_SENTINEL_START`. -/
def sentinelStart : Text := text "<MSG_DATA>"

/-- `MSG_PAYLOAD_SENTINEL_END`. -/
def sentinelEnd : Text := text "</MSG_DATA>"

/-- Status enum for log JSON payload. -/
inductive Status where
  | null
  | initting
  | initted
  | starting
  | inprog
  | complete
  | error
  deriving DecidableEq, Repr

namespace Status

/-- The string value of a member. -/
def value : Status → Text
  | null => text "NULL"
  | initting => text "INITIALIZING"
  | initted => text "INITIALIZED"
  | starting => text "STARTING"
  | inprog => text "IN_PROGRESS"
  | complete => text "COMPLETE"
  | error => text "ERROR"

/-- The members in declaration order. -/
def all : List Status := [null, initting, initted, starting, inprog, complete, error]

/-- `Status(value)` for a string. -/
def ofText (t : Text) : Option Status := all.find? (·.value = t)

/-- A status is recognised by its value. -/
@[simp] theorem ofText_value (s : Status) : ofText s.value = some s := by
  cases s <;> decide

/-- The constructor only finds a member under its own value. -/
theorem value_of_ofText {t : Text} {s : Status} (h : ofText t = some s) : s.value = t := by
  simpa using List.find?_some h

end Status

/-- An object that may be passed for a field, as far as the checks tell them apart. -/
inductive PyObject (F : Type) where
  | none
  | status (s : Status)
  | float (x : F)
  | str (t : Text)
  /-- Any other object, by the name of its type. -/
  | other (typeName : Text)

variable {F : Type}

/-- `str(type(obj))`. -/
def PyObject.typeName : PyObject F → Text
  | none => text "<class 'NoneType'>"
  | status _ => text "<enum 'Status'>"
  | float _ => text "<class 'float'>"
  | str _ => text "<class 'str'>"
  | other n => n

/-- The string that an object is, members of `Status` included. -/
def PyObject.asStr : PyObject F → Option Text
  | str t => some t
  | status s => some s.value
  | _ => Option.none

/-- The exceptions that `__post_init__` collects. -/
inductive FieldError where
  | typeError (message : Text)
  | valueError (message : Text)
  deriving DecidableEq

/-- Log payload for status reporting. -/
@[ext]
structure Payload (fl : Floats F) where
  status : Status
  prog : Option F
  msg : Option Text
  modnm : Option Text
  /-- `__post_init__` admits no other progress. -/
  prog_inUnit : ∀ x ∈ prog, fl.inUnit x = true

/-- The check of `status`. -/
def checkStatus : PyObject F → Except FieldError Status
  | .status s => .ok s
  | o => .error (.typeError (text "status: expect <enum 'Status'>, got " ++ o.typeName))

/-- The check of `prog`: a float of the unit interval or `None`. -/
def checkProg (fl : Floats F) :
    PyObject F → Except FieldError {p : Option F // ∀ x ∈ p, fl.inUnit x = true}
  | .float x =>
    if h : fl.inUnit x = true then .ok ⟨some x, by simpa using h⟩
    else .error (.valueError (text "prog: expect value between 0.0 and 1.0, got " ++ fl.repr x))
  | .none => .ok ⟨none, by simp⟩
  | o => .error (.typeError (text "prog: expect <class 'float'> or None, got " ++ o.typeName))

/-- The checks of `msg` and `modnm`: a string or `None`. -/
def checkStr (field : Text) : PyObject F → Except FieldError (Option Text)
  | .none => .ok none
  | o => match o.asStr with
    | some t => .ok (some t)
    | none =>
      .error (.typeError (field ++ text ": expect <class 'str'> or None, got " ++ o.typeName))

/-- The exception of a failed check. -/
def errorsOf {α : Type} : Except FieldError α → List FieldError
  | .ok _ => []
  | .error e => [e]

/-- The constructor with its `__post_init__`: all errors are collected. -/
def Payload.make (fl : Floats F) (status prog msg modnm : PyObject F) :
    Except (List FieldError) (Payload fl) :=
  match checkStatus status, checkProg fl prog, checkStr (text "msg") msg,
      checkStr (text "modnm") modnm with
  | .ok s, .ok p, .ok m, .ok n => .ok ⟨s, p.1, m, n, p.2⟩
  | s, p, m, n => .error (errorsOf s ++ errorsOf p ++ errorsOf m ++ errorsOf n)

/-- `None` or the value, as `json.dumps` writes it. -/
def dumpsOption {α : Type} (dumps : α → Text) : Option α → Text
  | none => text "null"
  | some x => dumps x

/-- A json string representation: `json.dumps(asdict(self))`. -/
def Payload.json {fl : Floats F} (p : Payload fl) : Text :=
  dumpsDict [(text "status", dumpsStr p.status.value), (text "prog", dumpsOption fl.repr p.prog),
    (text "msg", dumpsOption dumpsStr p.msg), (text "modnm", dumpsOption dumpsStr p.modnm)]

/-- The representation wrapped with sentinels, which is also `str(payload)`. -/
def Payload.jsonWrapped {fl : Floats F} (p : Payload fl) : Text :=
  sentinelStart ++ p.json ++ sentinelEnd

/-! ## The reader -/

/-- `(.*?)</MSG_DATA>` at the beginning of a text: the shortest content, which does
not run across a newline, and the rest. -/
def upToEnd : Text → Option (Text × Text)
  | [] => none
  | c :: s =>
    if sentinelEnd.isPrefixOf (c :: s) then some ([], (c :: s).drop sentinelEnd.length)
    else if c = ch '\n' then none
    else (upToEnd s).map fun r => (c :: r.1, r.2)

/-- `EXTRACT_PATTERN` at the beginning of a text. -/
def matchAt (s : Text) : Option (Text × Text) :=
  if sentinelStart.isPrefixOf s then upToEnd (s.drop sentinelStart.length) else none

/-- `EXTRACT_PATTERN.findall`, with the characters that the last match still covers. -/
def findallSkip : Nat → Text → List Text
  | _, [] => []
  | k + 1, _ :: s => findallSkip k s
  | 0, c :: s =>
    match matchAt (c :: s) with
    | none => findallSkip 0 s
    | some (content, rest) => content :: findallSkip (s.length - rest.length) s

/-- `EXTRACT_PATTERN.findall`: the contents of all matches, from left to right. -/
def findall (s : Text) : List Text := findallSkip 0 s

/-- Why the text between the sentinels is not a payload. -/
inductive ParseError where
  /-- `json.loads` raises. -/
  | decode
  /-- The JSON value has no members. -/
  | notSubscriptable
  /-- `KeyError: 'status'`. -/
  | missingStatus
  /-- `Status(...)` raises. -/
  | unknownStatus
  /-- `Expected prog to be None, int, or float`. -/
  | progType
  /-- `float(int)` raises `OverflowError`. -/
  | progOverflow
  /-- `Payload(**d)` gets an unexpected keyword argument. -/
  | unexpectedKey
  /-- `Errors constructing Payload`. -/
  | fields (errs : List FieldError)
  deriving DecidableEq

/-- The `ValueError`s of `payload_of_log_msg`. -/
inductive PayloadError where
  /-- `{n} payloads detected in log message. Expected 1.` -/
  | multiple (n : Nat) (logMsg : Text)
  /-- `Payload was detected in log message, but it failed to parse.` -/
  | invalid (logMsg raw : Text) (cause : ParseError)
  deriving DecidableEq

/-- `d[key]` of the dictionary that `json.loads` builds: the last member wins. -/
def getItem (ms : List (Text × Value)) (key : Text) : Option Value := ms.reverse.lookup key

/-- A decoded value as an object; only strings and `None` pass the string checks. -/
def objectOf (fl : Floats F) : Value → PyObject F
  | .null => .none
  | .bool _ => .other (text "<class 'bool'>")
  | .num n => if n.isFloat then match fl.ofNumeral n with
      | some x => .float x
      | none => .other (text "<class 'int'>")
    else .other (text "<class 'int'>")
  | .constant name => .float (fl.ofConstant name)
  | .str t => .str t
  | .arr _ => .other (text "<class 'list'>")
  | .obj _ => .other (text "<class 'dict'>")

/-- The conversion of `d["prog"]`; `bool` is a subclass of `int`. -/
def progOf (fl : Floats F) : Value → Except ParseError (PyObject F)
  | .null => .ok .none
  | .bool b => .ok (.float (if b then fl.one else fl.zero))
  | .num n => match fl.ofNumeral n with
    | some x => .ok (.float x)
    | none => .error .progOverflow
  | .constant name => .ok (.float (fl.ofConstant name))
  | _ => .error .progType

/-- The conversion of `d["status"]`. -/
def statusOf : Value → Except ParseError Status
  | .str t => match Status.ofText t with
    | some s => .ok s
    | none => .error .unknownStatus
  | _ => .error .unknownStatus

/-- The parameters of `Payload`. -/
def fieldNames : List Text := [text "status", text "prog", text "msg", text "modnm"]

/-- A field that is missing keeps its default `None`. -/
def fieldOf (fl : Floats F) (ms : List (Text × Value)) (key : Text) : PyObject F :=
  match getItem ms key with
  | none => .none
  | some v => objectOf fl v

/-- The `try` block on the text between the sentinels. -/
def parsePayload (fl : Floats F) (raw : Text) : Except ParseError (Payload fl) :=
  match loads raw with
  | none => .error .decode
  | some (.obj ms) => do
    let status ← match getItem ms (text "status") with
      | none => .error .missingStatus
      | some v => statusOf v
    let prog ← match getItem ms (text "prog") with
      | none => .ok .none
      | some v => progOf fl v
    if ms.all fun m => fieldNames.contains m.1 then
      match Payload.make fl (.status status) prog (fieldOf fl ms (text "msg"))
          (fieldOf fl ms (text "modnm")) with
      | .ok p => .ok p
      | .error errs => .error (.fields errs)
    else .error .unexpectedKey
  | some _ => .error .notSubscriptable

/-- Factory for `Payload`: `none` when the message contains no sentinels. -/
def payloadOfLogMsg (fl : Floats F) (logMsg : Text) : Except PayloadError (Option (Payload fl)) :=
  match findall logMsg with
  | [] => .ok none
  | [raw] => match parsePayload fl raw with
    | .ok p => .ok (some p)
    | .error e => .error (.invalid logMsg raw e)
  | raws => .error (.multiple raws.length logMsg)

/-! ## The search -/

/-- A body without the closing sentinel reaches to the first one. -/
theorem upToEnd_append {body : Text} (hb : ¬ sentinelEnd <:+: body) (hn : ch '\n' ∉ body)
    (rest : Text) : upToEnd (body ++ sentinelEnd ++ rest) = some (body, rest) := by
  have hhead : ch '<' ∉ text "/MSG_DATA>" := by decide
  induction body with
  | nil =>
    rw [List.nil_append, show sentinelEnd = ch '<' :: text "/MSG_DATA>" from rfl, List.cons_append,
      upToEnd, if_pos]
    · rfl
    · exact List.isPrefixOf_iff_prefix.mpr (List.prefix_append (ch '<' :: text "/MSG_DATA>") rest)
  | cons c body ih =>
    have hp : ¬ sentinelEnd <+: c :: body ++ sentinelEnd ++ rest :=
      not_prefix_append hhead hb (by simp)
    have hc : c ≠ ch '\n' := fun h => hn (h ▸ List.mem_cons_self ..)
    have ih := ih (fun h => hb (h.trans (List.infix_cons (List.infix_refl body))))
      fun h => hn (List.mem_cons_of_mem _ h)
    rw [List.cons_append, List.cons_append] at hp ⊢
    rw [upToEnd, if_neg (fun h => hp (List.isPrefixOf_iff_prefix.mp h)), if_neg hc, ih]
    rfl

/-- Skipped characters are dropped. -/
theorem findallSkip_eq (k : Nat) (s : Text) : findallSkip k s = findallSkip 0 (s.drop k) := by
  induction k generalizing s with
  | zero => rfl
  | succ k ih =>
    cases s with
    | nil => rfl
    | cons c s => exact ih s

/-- A match begins with the opening sentinel. -/
theorem matchAt_of_not_prefix {s : Text} (h : ¬ sentinelStart <+: s) : matchAt s = none := by
  rw [matchAt, if_neg fun hp => h (List.isPrefixOf_iff_prefix.mp hp)]

/-- A text without the opening sentinel has no match. -/
theorem findall_of_not_infix {s : Text} (h : ¬ sentinelStart <:+: s) : findall s = [] := by
  unfold findall
  induction s with
  | nil => rfl
  | cons c s ih =>
    rw [findallSkip, matchAt_of_not_prefix fun hp => h hp.isInfix]
    exact ih fun hi => h (hi.trans (List.infix_cons (List.infix_refl s)))

/-- The first match: its content ends at the first closing sentinel. -/
theorem findall_append {pre body : Text} (hp : ¬ sentinelStart <:+: pre)
    (hb : ¬ sentinelEnd <:+: body) (hn : ch '\n' ∉ body) (rest : Text) :
    findall (pre ++ sentinelStart ++ (body ++ sentinelEnd ++ rest)) = body :: findall rest := by
  have hhead : ch '<' ∉ text "MSG_DATA>" := by decide
  unfold findall
  induction pre with
  | nil =>
    have hm : matchAt (sentinelStart ++ (body ++ sentinelEnd ++ rest)) = some (body, rest) := by
      rw [matchAt, if_pos (List.isPrefixOf_iff_prefix.mpr (List.prefix_append ..)),
        List.drop_left, upToEnd_append hb hn]
    rw [List.nil_append, show sentinelStart = ch '<' :: text "MSG_DATA>" from rfl,
      List.cons_append] at *
    rw [findallSkip, hm]
    simp only
    rw [findallSkip_eq, List.length_append, List.length_append,
      ← Nat.add_assoc, Nat.add_sub_cancel, ← List.append_assoc]
    congr 2
    apply List.drop_left'
    rw [List.length_append]
  | cons c pre ih =>
    have hp' : ¬ sentinelStart <+: c :: pre ++ sentinelStart ++ (body ++ sentinelEnd ++ rest) :=
      not_prefix_append hhead hp (by simp)
    rw [List.cons_append, List.cons_append] at hp' ⊢
    rw [findallSkip, matchAt_of_not_prefix hp']
    exact ih fun h => hp (h.trans (List.infix_cons (List.infix_refl pre)))

/-- A message with exactly one pair of sentinels is judged by what stands between them. -/
theorem payloadOfLogMsg_append (fl : Floats F) {pre body rest : Text}
    (hp : ¬ sentinelStart <:+: pre) (hb : ¬ sentinelEnd <:+: body) (hn : ch '\n' ∉ body)
    (hr : ¬ sentinelStart <:+: rest) :
    payloadOfLogMsg fl (pre ++ sentinelStart ++ (body ++ sentinelEnd ++ rest)) =
      match parsePayload fl body with
      | .ok p => .ok (some p)
      | .error e =>
        .error (.invalid (pre ++ sentinelStart ++ (body ++ sentinelEnd ++ rest)) body e) := by
  rw [payloadOfLogMsg, findall_append hp hb hn, findall_of_not_infix hr]

/-- Text that is not JSON is no payload. -/
theorem parsePayload_of_refused (fl : Floats F) {raw : Text} (h : loads raw = none) :
    parsePayload fl raw = .error .decode := by
  simp only [parsePayload, h]

/-- A first match that is not JSON makes the reader raise, whatever follows. -/
theorem payloadOfLogMsg_refused (fl : Floats F) {pre body rest : Text}
    (hp : ¬ sentinelStart <:+: pre) (hb : ¬ sentinelEnd <:+: body) (hn : ch '\n' ∉ body)
    (hl : loads body = none) :
    ∃ e, payloadOfLogMsg fl (pre ++ sentinelStart ++ (body ++ sentinelEnd ++ rest)) = .error e := by
  rw [payloadOfLogMsg, findall_append hp hb hn]
  cases findall rest with
  | nil =>
    simp only [parsePayload_of_refused fl hl]
    exact ⟨_, rfl⟩
  | cons _ _ => exact ⟨_, rfl⟩

/-! ## Records of four members -/

/-- An optional text in a JSON record. -/
def strValue : Option Text → Value
  | none => .null
  | some t => .str t

/-- The members that every writer of the repository produces, in this order. -/
def record (status prog : Value) (msg modnm : Option Text) : List (Text × Value) :=
  [(text "status", status), (text "prog", prog), (text "msg", strValue msg),
    (text "modnm", strValue modnm)]

/-- A text, or none, passes the check of its field. -/
@[simp] theorem checkStr_strValue (fl : Floats F) (field : Text) (t : Option Text) :
    checkStr field (objectOf fl (strValue t)) = .ok t := by
  cases t <;> rfl

/-- Such a record is accepted or refused for its status and its progress alone. -/
theorem parsePayload_record (fl : Floats F) {raw : Text} {status prog : Value}
    {msg modnm : Option Text} (h : loads raw = some (.obj (record status prog msg modnm))) :
    parsePayload fl raw = (statusOf status).bind fun s => (progOf fl prog).bind fun o =>
      match checkProg fl o with
      | .ok p => .ok ⟨s, p.1, msg, modnm, p.2⟩
      | .error e => .error (.fields [e]) := by
  have hs : getItem (record status prog msg modnm) (text "status") = some status := rfl
  have hp : getItem (record status prog msg modnm) (text "prog") = some prog := rfl
  have hm : fieldOf fl (record status prog msg modnm) (text "msg") =
    objectOf fl (strValue msg) := rfl
  have hn : fieldOf fl (record status prog msg modnm) (text "modnm") =
    objectOf fl (strValue modnm) := rfl
  have hkeys : ((record status prog msg modnm).all fun m => fieldNames.contains m.1) = true := rfl
  simp only [parsePayload, h, hs, hp, hm, hn, hkeys, ite_true]
  cases statusOf status with
  | error e => rfl
  | ok s =>
    cases progOf fl prog with
    | error e => rfl
    | ok o =>
      simp only [bind, Except.bind, Payload.make, checkStatus, checkStr_strValue]
      cases checkProg fl o <;> rfl

/-- An accepted record gives back its texts, the status under its own value. -/
theorem fields_of_record (fl : Floats F) {raw : Text} {status prog : Value}
    {msg modnm : Option Text} {p : Payload fl}
    (h : loads raw = some (.obj (record status prog msg modnm)))
    (hp : parsePayload fl raw = .ok p) :
    status = .str p.status.value ∧ p.msg = msg ∧ p.modnm = modnm := by
  rw [parsePayload_record fl h] at hp
  cases hs : statusOf status with
  | error e =>
    rw [hs] at hp
    cases hp
  | ok s =>
    have hvalue : status = .str s.value := by
      unfold statusOf at hs
      split at hs
      · split at hs
        · rename_i hs'
          cases hs
          rw [Status.value_of_ofText hs']
        · cases hs
      · cases hs
    rw [hs, Except.bind] at hp
    cases hprog : progOf fl prog with
    | error e =>
      rw [hprog] at hp
      cases hp
    | ok o =>
      simp only [hprog, Except.bind] at hp
      split at hp
      · cases hp
        exact ⟨hvalue, rfl, rfl⟩
      · cases hp

/-- A registered status and no progress. -/
theorem parsePayload_record_null (fl : Floats F) {raw : Text} {s : Status}
    {msg modnm : Option Text}
    (h : loads raw = some (.obj (record (.str s.value) .null msg modnm))) :
    parsePayload fl raw = .ok ⟨s, none, msg, modnm, by simp⟩ := by
  rw [parsePayload_record fl h]
  simp only [statusOf, Status.ofText_value]
  rfl

/-- A registered status and a number of the unit interval. -/
theorem parsePayload_record_num (fl : Floats F) {raw : Text} {s : Status} {n : Numeral} {x : F}
    {msg modnm : Option Text}
    (h : loads raw = some (.obj (record (.str s.value) (.num n) msg modnm)))
    (hn : fl.ofNumeral n = some x) (hx : fl.inUnit x = true) :
    parsePayload fl raw = .ok ⟨s, some x, msg, modnm, by simpa using hx⟩ := by
  rw [parsePayload_record fl h]
  simp only [statusOf, Status.ofText_value, progOf, hn, Except.bind, checkProg, hx, dite_true]

/-- A number outside the unit interval is refused. -/
theorem parsePayload_record_outside (fl : Floats F) {raw : Text} {s : Status} {n : Numeral} {x : F}
    {msg modnm : Option Text}
    (h : loads raw = some (.obj (record (.str s.value) (.num n) msg modnm)))
    (hn : fl.ofNumeral n = some x) (hx : fl.inUnit x = false) :
    parsePayload fl raw = .error (.fields
      [.valueError (text "prog: expect value between 0.0 and 1.0, got " ++ fl.repr x)]) := by
  rw [parsePayload_record fl h]
  simp only [statusOf, Status.ofText_value, progOf, hn, Except.bind, checkProg, hx,
    Bool.false_eq_true, dite_false]

end Ewts.Python
