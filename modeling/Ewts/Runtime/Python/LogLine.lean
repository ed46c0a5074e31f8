import Ewts.Runtime.Python.Formatter
import Ewts.Runtime.Python.Payload

/-!
# Log lines

`parts_of_log_line` splits a line at whitespace into timestamp, module, level and
message, and reads the payload that the line may carry.
-/

namespace Ewts.Python

/-- A `datetime`. -/
structure DateTime where
  year : Nat
  month : Nat
  day : Nat
  hour : Nat
  minute : Nat
  second : Nat
  microsecond : Nat
  /-- Offset from UTC in seconds; absent for a naive `datetime`. -/
  tzinfo : Option Int
  deriving DecidableEq, Repr

/-- The moment of a clock reading, in UTC. -/
def dateTimeOf (t : Timestamp) : DateTime :=
  ⟨t.year, t.month, t.day, t.hour, t.minute, t.second, t.ms * 1000, some 0⟩

/-- `datetime.fromisoformat`, of which the lines use one format. -/
structure IsoReader where
  /-- Absent where the method raises `ValueError`. -/
  fromisoformat : Text → Option DateTime
  fromisoformat_iso : ∀ t : Timestamp, fromisoformat t.iso = some (dateTimeOf t)

/-- The format of the lines, read by its columns. -/
private def readColumns (s : Text) : Option DateTime :=
  if s.length = 24 then
    some ⟨decimalValue (s.take 4), decimalValue ((s.drop 5).take 2),
      decimalValue ((s.drop 8).take 2), decimalValue ((s.drop 11).take 2),
      decimalValue ((s.drop 14).take 2), decimalValue ((s.drop 17).take 2),
      decimalValue ((s.drop 20).take 3) * 1000, some 0⟩
  else none

/-- The columns of a clock reading. -/
private theorem iso_columns (t : Timestamp) :
    t.iso.take 4 = fixedDigits 4 t.year ∧ (t.iso.drop 5).take 2 = fixedDigits 2 t.month ∧
      (t.iso.drop 8).take 2 = fixedDigits 2 t.day ∧ (t.iso.drop 11).take 2 = fixedDigits 2 t.hour ∧
      (t.iso.drop 14).take 2 = fixedDigits 2 t.minute ∧
      (t.iso.drop 17).take 2 = fixedDigits 2 t.second ∧
      (t.iso.drop 20).take 3 = fixedDigits 3 t.ms := by
  refine ⟨?_, ?_, ?_, ?_, ?_, ?_, ?_⟩ <;>
    simp [Timestamp.iso, List.drop_append, List.drop_of_length_le]

/-- The columns of a clock reading give its moment. -/
private theorem readColumns_iso (t : Timestamp) : readColumns t.iso = some (dateTimeOf t) := by
  have hlen : t.iso.length = 24 := by simp [Timestamp.iso]
  obtain ⟨hyear, hmonth, hday, hhour, hminute, hsecond, hms⟩ := iso_columns t
  have hdays : daysInMonth t.year t.month ≤ 31 := by
    unfold daysInMonth
    split_ifs <;> omega
  have hyears := t.year_bounds
  have hmonths := t.month_bounds
  have hdayBounds := t.day_bounds
  have hhours := t.hour_lt
  have hminutes := t.minute_lt
  have hseconds := t.second_lt
  have hmillis := t.ms_lt
  rw [readColumns, if_pos hlen, dateTimeOf, hyear, hmonth, hday, hhour, hminute, hsecond, hms,
    decimalValue_fixedDigits (by omega), decimalValue_fixedDigits (by omega),
    decimalValue_fixedDigits (by omega), decimalValue_fixedDigits (by omega),
    decimalValue_fixedDigits (by omega), decimalValue_fixedDigits (by omega),
    decimalValue_fixedDigits (by omega)]

/-- A reader of exactly this format. -/
def IsoReader.columns : IsoReader := ⟨readColumns, readColumns_iso⟩

/-- Parts of a log line, optionally with a structured payload. -/
structure LogParts {F : Type} (fl : Floats F) where
  dt : Option DateTime
  module : Option Text
  level : Option Text
  msg : Option Text
  payload : Option (Payload fl)

/-- The exceptions of `parts_of_log_line`. -/
inductive LineError where
  /-- `LogPartsFactoryParserError`: `Could not parse log line`. -/
  | fewParts (line : Text)
  /-- `LogPartsFactoryParserError`: `Error parsing line`. -/
  | timestamp (line : Text)
  /-- The `ValueError` of `payload_of_log_msg`. -/
  | payload (e : PayloadError)
  /-- `ValueError`: `Errors constructing LogParts`. -/
  | parts (errs : List FieldError)
  deriving DecidableEq

variable {F : Type}

/-- The check of one field: without tolerance it may not be `None`. -/
def checkPart {α : Type} (tolerant : Bool) (expected : Text) : Option α → List FieldError
  | some _ => []
  | none => if tolerant then [] else
      [.typeError (expected ++ text ", got <class 'NoneType'> (tolerant=False)")]

/-- The constructor with its `__post_init__`. -/
def LogParts.make {fl : Floats F} (tolerant : Bool) (p : LogParts fl) :
    Except (List FieldError) (LogParts fl) :=
  let errs := checkPart tolerant (text "dt: expect <class 'datetime.datetime'>") p.dt ++
    checkPart tolerant (text "module: expect <class 'str'>") p.module ++
    checkPart tolerant (text "level: expect <class 'str'>") p.level ++
    checkPart tolerant (text "msg: expect <class 'str'>") p.msg
  if errs = [] then .ok p else .error errs

/-- The end of `parts_of_log_line`: the payload is read from the whole line. -/
def withPayload (fl : Floats F) (line : Text) (tolerant : Bool) (dt : Option DateTime)
    (module level msg : Option Text) : Except LineError (LogParts fl) :=
  match payloadOfLogMsg fl line with
  | .error e => .error (.payload e)
  | .ok payload =>
    match LogParts.make tolerant ⟨dt, module, level, msg, payload⟩ with
    | .error errs => .error (.parts errs)
    | .ok parts => .ok parts

/-- Factory for `LogParts`. -/
def partsOfLogLine (fl : Floats F) (reader : IsoReader) (line : Text) (tolerant : Bool) :
    Except LineError (LogParts fl) :=
  match splitWhitespace 3 line with
  | [timestampStr, module, level, msg] =>
    match reader.fromisoformat timestampStr with
    | none =>
      if tolerant then withPayload fl line tolerant none none none none
      else .error (.timestamp line)
    | some dt =>
      if dt.tzinfo = some 0 then
        withPayload fl line tolerant (some dt) (some module) (some level) (some msg)
      else if tolerant then
        withPayload fl line tolerant none (some module) (some level) (some msg)
      else .error (.timestamp line)
  | _ =>
    if tolerant then withPayload fl line tolerant none none none none
    else .error (.fewParts line)

/-! ## Status lines -/

/-- The characters of a clock reading are neither whitespace nor angle brackets. -/
theorem iso_plain {t : Timestamp} {c : CodePoint} (h : c ∈ t.iso) :
    isSpace c = false ∧ isLineBreak c = false ∧ c ≠ ch '<' := by
  rcases t.mem_iso h with hd | rfl | rfl | rfl | rfl | rfl
  · simp only [CodePoint.isDigit, Bool.and_eq_true, decide_eq_true_eq] at hd
    refine ⟨?_, ?_, ?_⟩
    · exact isSpace_of_graphic (by omega)
    · simp only [isLineBreak, Bool.or_eq_false_iff, Bool.and_eq_false_iff, decide_eq_false_iff_not]
      omega
    · rintro rfl
      revert hd
      decide
  all_goals decide

/-- Every line boundary is white space. -/
theorem isSpace_of_isLineBreak {c : CodePoint} (h : isLineBreak c = true) : isSpace c = true := by
  simp only [isLineBreak, isSpace, Bool.or_eq_true, Bool.and_eq_true, decide_eq_true_eq] at h ⊢
  omega

/-- A status line: clock reading, id column, `STATUS` at seven columns, message. -/
def statusLine (now : Timestamp) (idColumn msg : Text) : Text :=
  now.iso ++ ch ' ' :: idColumn ++ ch ' ' :: text "STATUS " ++ ch ' ' :: msg

/-- The four parts of a status line. -/
theorem split_statusLine (now : Timestamp) {id msg : Text} {blanks : Nat} {c : CodePoint}
    (hne : id ≠ []) (hid : ∀ c ∈ id, isSpace c = false) (hc : isSpace c = false) :
    splitWhitespace 3 (statusLine now (id ++ spaces blanks) (c :: msg)) =
      [now.iso, id, text "STATUS", c :: msg] := by
  have hline : statusLine now (id ++ spaces blanks) (c :: msg) =
      now.iso ++ ([ch ' '] ++ (id ++ ((spaces blanks ++ [ch ' ']) ++
        (text "STATUS" ++ ([ch ' ', ch ' '] ++ c :: msg))))) := by
    simp [statusLine, text]
  have hone : ∀ d ∈ [ch ' '], isSpace d = true := by decide
  have hgap : ∀ d ∈ spaces blanks ++ [ch ' '], isSpace d = true :=
    List.forall_mem_append.mpr ⟨isSpace_of_mem_spaces, hone⟩
  rw [hline,
    splitWhitespace_field now.iso_ne_nil (fun d hd => (iso_plain hd).1) (List.cons_ne_nil _ _) hone,
    splitWhitespace_field hne hid (by simp) hgap,
    splitWhitespace_field (by decide) (by decide) (List.cons_ne_nil _ _) (by decide),
    splitWhitespace_rest hc]

section Strict

variable (fl : Floats F) (reader : IsoReader) (now : Timestamp) {id msg : Text} {blanks : Nat}
  {c : CodePoint}

/-- Strict parsing of a status line returns its columns and the payload of the line. -/
theorem partsOfLogLine_status (hne : id ≠ []) (hid : ∀ c ∈ id, isSpace c = false)
    (hc : isSpace c = false) {payload : Option (Payload fl)}
    (h : payloadOfLogMsg fl (statusLine now (id ++ spaces blanks) (c :: msg)) = .ok payload) :
    partsOfLogLine fl reader (statusLine now (id ++ spaces blanks) (c :: msg)) false =
      .ok ⟨some (dateTimeOf now), some id, some (text "STATUS"), some (c :: msg), payload⟩ := by
  have htz : (dateTimeOf now).tzinfo = some 0 := rfl
  simp only [partsOfLogLine, split_statusLine now hne hid hc, reader.fromisoformat_iso, htz,
    ite_true, withPayload, h]
  rfl

/-- It raises what reading the payload raises. -/
theorem partsOfLogLine_status_error (hne : id ≠ []) (hid : ∀ c ∈ id, isSpace c = false)
    (hc : isSpace c = false) {e : PayloadError}
    (h : payloadOfLogMsg fl (statusLine now (id ++ spaces blanks) (c :: msg)) = .error e) :
    partsOfLogLine fl reader (statusLine now (id ++ spaces blanks) (c :: msg)) false =
      .error (.payload e) := by
  have htz : (dateTimeOf now).tzinfo = some 0 := rfl
  simp only [partsOfLogLine, split_statusLine now hne hid hc, reader.fromisoformat_iso, htz,
    ite_true, withPayload, h]

end Strict

/-- Columns in front of a message hold no opening sentinel: it has no blank, and no column has
room for it. -/
theorem not_infix_columns (now : Timestamp) {idColumn levelColumn msg : Text}
    (hid : idColumn.length < 10) (hlevel : levelColumn.length < 10)
    (hmsg : ¬ sentinelStart <:+: msg) :
    ¬ sentinelStart <:+: now.iso ++ ch ' ' :: (idColumn ++ ch ' ' :: (levelColumn ++
      ch ' ' :: msg)) := by
  have hblank : ch ' ' ∉ sentinelStart := by decide
  have hne : sentinelStart ≠ [] := by decide
  have hshort : ∀ column : Text, column.length < 10 → ¬ sentinelStart <:+: column := by
    intro column hlen h
    have hten : sentinelStart.length = 10 := rfl
    have hle := h.length_le
    omega
  intro h
  rcases infix_append_sep hblank hne h with h | h
  · have hm := h.subset (show ch '<' ∈ sentinelStart by decide)
    exact (iso_plain hm).2.2 rfl
  rcases infix_append_sep hblank hne h with h | h
  · exact hshort idColumn hid h
  rcases infix_append_sep hblank hne h with h | h
  · exact hshort levelColumn hlevel h
  · exact hmsg h

/-- In front of its message a status line contains no opening sentinel. -/
theorem not_infix_statusLine (now : Timestamp) {idColumn : Text} (hlen : idColumn.length ≤ 8) :
    ¬ sentinelStart <:+: statusLine now idColumn [] := by
  have hline : statusLine now idColumn [] =
      now.iso ++ ch ' ' :: (idColumn ++ ch ' ' :: (text "STATUS" ++ ch ' ' :: [ch ' '])) := by
    simp [statusLine, text]
  rw [hline]
  exact not_infix_columns now (by omega) (by decide) (by decide)

/-- The message ends the line. -/
theorem statusLine_append (now : Timestamp) (idColumn message : Text) :
    statusLine now idColumn message = statusLine now idColumn [] ++ message := by
  simp only [statusLine, List.append_assoc, List.cons_append, List.nil_append]

/-- A status line is unbroken when its id and its message are. -/
theorem statusLine_unbroken {now : Timestamp} {idColumn message : Text}
    (hid : ∀ c ∈ idColumn, isLineBreak c = false) (hm : ∀ c ∈ message, isLineBreak c = false) :
    ∀ c ∈ statusLine now idColumn message, isLineBreak c = false := by
  have hlevel : ∀ c ∈ text "STATUS ", isLineBreak c = false := by decide
  intro c hc
  simp only [statusLine, List.mem_append, List.mem_cons] at hc
  rcases hc with ((hc | rfl | hc) | rfl | hc) | rfl | hc
  · exact (iso_plain hc).2.1
  · rfl
  · exact hid c hc
  · rfl
  · exact hlevel c hc
  · rfl
  · exact hm c hc

/-- The payload of a status line whose message is one JSON text between sentinels. -/
theorem payloadOfLogMsg_wrapped {fl : Floats F} (now : Timestamp) {idColumn body rest : Text}
    (hcol : idColumn.length ≤ 8) (hb : ¬ sentinelEnd <:+: body) (hn : ch '\n' ∉ body)
    {p : Payload fl} (hp : parsePayload fl body = .ok p) (hr : ¬ sentinelStart <:+: rest) :
    payloadOfLogMsg fl (statusLine now idColumn (sentinelStart ++ body ++ sentinelEnd ++ rest)) =
      .ok (some p) := by
  have happ := payloadOfLogMsg_append fl (not_infix_statusLine now hcol) hb hn hr
  rw [hp] at happ
  rw [statusLine_append]
  simpa only [List.append_assoc] using happ

/-- Strict parsing of such a line. -/
theorem partsOfLogLine_wrapped {fl : Floats F} (reader : IsoReader) (now : Timestamp)
    {id body rest : Text} {blanks : Nat} (hne : id ≠ []) (hid : ∀ c ∈ id, isSpace c = false)
    (hlen : id.length + blanks ≤ 8) (hb : ¬ sentinelEnd <:+: body) (hn : ch '\n' ∉ body)
    {p : Payload fl} (hp : parsePayload fl body = .ok p) (hr : ¬ sentinelStart <:+: rest) :
    partsOfLogLine fl reader
        (statusLine now (id ++ spaces blanks)
          (sentinelStart ++ body ++ sentinelEnd ++ rest)) false =
      .ok ⟨some (dateTimeOf now), some id, some (text "STATUS"),
        some (sentinelStart ++ body ++ sentinelEnd ++ rest), some p⟩ := by
  have hcol : (id ++ spaces blanks).length ≤ 8 := by
    rw [List.length_append, spaces, List.length_replicate]
    exact hlen
  have hfirst : isSpace (ch '<') = false := rfl
  exact partsOfLogLine_status fl reader now hne hid hfirst
    (payloadOfLogMsg_wrapped now hcol hb hn hp hr)

end Ewts.Python
