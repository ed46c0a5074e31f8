import Ewts.Correctness.Journals
import Ewts.Correctness.Extraction
import Ewts.Correctness.Lines

/-!
# Reading the journals back

The Python reader takes the files of a run apart again, line by line, into the calls and the
records that were accepted. A payload log that ends in the middle of a record reads as the
records before it.
-/

namespace Ewts.Ngen

open Python (partsOfLogLine payloadOfLogMsg sentinelStart sentinelEnd LogParts spaces)

variable {F : Type} (fl : Floats F)

/-! ## Lines -/

/-- A call whose lines the reader understands. -/
structure Call.Readable (c : Call) : Prop where
  level : ∃ level : LogLevel, c.messageLevel = level.value
  id_ne : c.moduleName ≠ []
  id : ∀ x ∈ c.moduleName, (0x21 ≤ x.val ∧ x.val ≤ 0x7E) ∧ ¬(0x61 ≤ x.val ∧ x.val ≤ 0x7A)
  message : LineText c.message
  sentinel : ¬ sentinelStart <:+: c.message

/-- The lines of a call, without their newlines. -/
def Call.pieces (c : Call) : List Text :=
  (visiblePieces c.message).map fun piece => c.logPrefix ++ ch ' ' :: dropReturn piece

/-- What its lines say. -/
def Call.parts (c : Call) : List (LogParts fl) :=
  (visiblePieces c.message).map fun piece =>
    ⟨some (Python.dateTimeOf c.clock.line), some (c.moduleName.take 8),
      some (logLevelName c.messageLevel), some (readPiece piece), none⟩

section Call

variable {c : Call} (h : c.Readable)
include h

theorem Call.Readable.newline_not_mem : ∀ line ∈ c.pieces, ch '\n' ∉ line := by
  intro line hline
  obtain ⟨piece, hpiece, rfl⟩ := List.mem_map.mp hline
  obtain ⟨level, hlevel⟩ := h.level
  exact newline_not_mem_line h.id hlevel h.message (List.mem_filter.mp hpiece).1

theorem Call.Readable.read (reader : Python.IsoReader) :
    c.pieces.map (partsOfLogLine fl reader · false) = (c.parts fl).map .ok := by
  obtain ⟨level, hlevel⟩ := h.level
  rw [Call.pieces, Call.parts, List.map_map, List.map_map]
  apply List.map_congr_left
  intro piece hpiece
  obtain ⟨hp, hvisible⟩ := List.mem_filter.mp hpiece
  have hread : partsOfLogLine fl reader (c.logPrefix ++ ch ' ' :: dropReturn piece) false = _ :=
    partsOfLogLine_line reader h.id_ne h.id hlevel h.message h.sentinel hp hvisible
  rw [Function.comp_apply, Function.comp_apply, hread, hlevel]

end Call

/-- A log of such calls reads as what was called. -/
theorem log_reads_as_calls (reader : Python.IsoReader) {calls : List Call}
    (h : ∀ c ∈ calls, c.Readable) :
    (physicalLines (calls.flatMap Call.lines).flatten).map (partsOfLogLine fl reader · false) =
      calls.flatMap fun c => (c.parts fl).map .ok := by
  have htext : (calls.flatMap Call.lines).flatten = journalText (calls.flatMap Call.pieces) := by
    induction calls with
    | nil => rfl
    | cons c calls ih =>
      rw [List.flatMap_cons, List.flatten_append,
        flatten_lines (h c (List.mem_cons_self ..)).message,
        ih fun c hc => h c (List.mem_cons_of_mem _ hc), List.flatMap_cons, journalText_append,
        Call.pieces]
  have hlines : ∀ line ∈ calls.flatMap Call.pieces, ch '\n' ∉ line := by
    intro line hline
    obtain ⟨c, hc, hline⟩ := List.mem_flatMap.mp hline
    exact (h c hc).newline_not_mem line hline
  have hphysical := physicalLines_flatten hlines
  rw [htext, journalText, hphysical, List.map_flatMap]
  exact List.flatMap_congr fun c hc => (h c hc).read fl reader

/-! ## Records -/

/-- A record whose line is one, and that only its closing sentinel ends. -/
structure Record.Whole (r : Record F) : Prop where
  id : ∀ c ∈ toUpper r.ewtsId, c ≠ ch '\n' ∧ c ≠ ch '\r'
  prog : WritesNumber fl r.fields.prog
  texts : ∀ s ∈ r.fields.texts, ¬ sentinelEnd <:+: s

/-- A record that the reader accepts. -/
structure Record.Readable (r : Record F) : Prop where
  id_ne : r.ewtsId ≠ []
  id : ∀ c ∈ r.ewtsId, 0x21 ≤ c.val ∧ c.val ≤ 0x7E
  status : ∃ s : Python.Status, s ≠ .null ∧ r.fields.status = s.value
  prog : fl.negative r.fields.prog = true ∨ fl.inUnit r.fields.prog = true
  msg : ¬ Breaks r.fields.msg
  modnm : ¬ Breaks r.fields.modnm

/-- The line of a record. -/
def Record.line (r : Record F) : Text := payloadLine fl r.clock.line r.ewtsId r.fields

/-- The parts of a line tell the columns and the fields of a record, its progress to the digits
that were printed. -/
def Record.Carries {fl : Floats F} (r : Record F) (parts : LogParts fl) : Prop :=
  parts.dt = some (Python.dateTimeOf r.clock.line) ∧
    parts.module = some ((toUpper r.ewtsId).take 8) ∧ parts.level = some (text "STATUS") ∧
    ∃ q, parts.payload = some q ∧ q.status.value = r.fields.status ∧
      PrintedProg fl r.fields.prog q.prog ∧ q.msg = memberText r.fields.msg ∧
      q.modnm = memberText r.fields.modnm

variable {fl}

theorem recordsText_eq (records : List (Record F)) :
    recordsText fl records = journalText (records.map (Record.line fl)) := by
  have hwritten : Record.written fl = fun r => r.line fl ++ [ch '\n'] := by
    funext r
    exact payloadRecord_eq r.clock.line r.ewtsId r.fields
  rw [recordsText, journalText, List.map_map, hwritten, Function.comp_def]

section Record

variable {r : Record F}

theorem Record.Readable.not_breaks (h : r.Readable fl) : ∀ t ∈ r.fields.texts, ¬ Breaks t := by
  obtain ⟨s, _, hstatus⟩ := h.status
  exact not_breaks_of_registered hstatus h.msg h.modnm

theorem Record.Readable.whole (h : r.Readable fl) : r.Whole fl where
  id := by
    intro c hc
    have hspace := isSpace_of_mem_toUpper h.id c hc
    refine ⟨?_, ?_⟩ <;> rintro rfl <;> exact absurd hspace (by decide)
  prog := writesNumber_of_inUnit h.prog
  texts := fun s hs => not_infix_of_not_breaks (h.not_breaks s hs)

theorem Record.Whole.newline_not_mem (h : r.Whole fl) : ch '\n' ∉ r.line fl :=
  fun hc => (payloadLine_unbroken h.prog h.id _ hc).1 rfl

/-- The reader returns what the record was made of. -/
theorem Record.Readable.read (h : r.Readable fl) (reader : Python.IsoReader) :
    ∃ parts, partsOfLogLine fl reader (r.line fl) false = .ok parts ∧ r.Carries parts := by
  obtain ⟨s, hs, hstatus⟩ := h.status
  obtain ⟨q, hparse, hqs, hqp, hqm, hqn⟩ :=
    parsePayload_inUnit (memberText_registered hs hstatus) h.prog h.not_breaks
  have hspace := isSpace_of_mem_toUpper h.id
  have hid : ∀ c ∈ (toUpper r.ewtsId).take 8, Python.isSpace c = false :=
    fun c hc => hspace c (List.mem_of_mem_take hc)
  have hne : (toUpper r.ewtsId).take 8 ≠ [] := by
    rw [ne_eq, List.take_eq_nil_iff]
    simp [toUpper, h.id_ne]
  have hlen : ((toUpper r.ewtsId).take 8).length + (8 - r.ewtsId.length) ≤ 8 := by
    rw [List.length_take, toUpper, List.length_map]
    omega
  have hend := PayloadFields.not_infix_json h.whole.prog h.whole.texts
  have hlf : ch '\n' ∉ payloadJson fl r.fields :=
    fun hc => (PayloadFields.json_unbroken h.whole.prog _ hc).1 rfl
  have hnone : ¬ sentinelStart <:+: [] := by decide
  have hread := Python.partsOfLogLine_wrapped reader r.clock.line hne hid hlen hend hlf hparse hnone
  rw [← padEwtsId_eq, ← payloadLine_rest, List.append_nil] at hread
  exact ⟨_, hread, rfl, rfl, rfl, q, rfl, by rw [hqs, hstatus], hqp, hqm, hqn⟩

/-- A front of the line has no payload: its closing sentinel is the end of the line. -/
theorem Record.Whole.torn (h : r.Whole fl) {torn : Text} (hpre : torn <+: r.line fl)
    (hne : torn ≠ r.line fl) : payloadOfLogMsg fl torn = .ok none := by
  have hstart : ¬ sentinelStart <:+: Python.statusLine r.clock.line (padEwtsId r.ewtsId) [] :=
    Python.not_infix_statusLine _ (Nat.le_of_eq (length_padEwtsId _))
  have hend := PayloadFields.not_infix_json h.prog h.texts
  obtain ⟨cut, hcut⟩ := hpre
  have hline : r.line fl = Python.statusLine r.clock.line (padEwtsId r.ewtsId) [] ++
      sentinelStart ++ (payloadJson fl r.fields ++ sentinelEnd) := by
    have happend : r.line fl ++ [] = Python.statusLine r.clock.line (padEwtsId r.ewtsId) [] ++
      sentinelStart ++ (payloadJson fl r.fields ++ sentinelEnd ++ []) := payloadLine_append
    rwa [List.append_nil, List.append_nil] at happend
  have hnot : ¬ Bracketed torn := by
    rintro ⟨a, b, c, rfl⟩
    have hbracket : Python.statusLine r.clock.line (padEwtsId r.ewtsId) [] ++ sentinelStart ++
        (payloadJson fl r.fields ++ sentinelEnd) =
          a ++ sentinelStart ++ (b ++ sentinelEnd ++ (c ++ cut)) := by
      rw [← hline, ← hcut]
      simp only [List.append_assoc]
    have hnil : c ++ cut = [] :=
      eq_nil_of_bracketed (by decide : ch '<' ∉ text "MSG_DATA>")
        (by decide : ch '<' ∉ text "/MSG_DATA>") hstart hend hbracket
    rw [(List.append_eq_nil_iff.mp hnil).2, List.append_nil] at hcut
    exact hne hcut
  rw [payloadOfLogMsg, findall_of_not_bracketed hnot]

end Record

/-- A log of such records reads as what was recorded. -/
theorem log_reads_as_records (reader : Python.IsoReader) {records : List (Record F)}
    (h : ∀ r ∈ records, r.Readable fl) :
    List.Forall₂ (fun line r => ∃ parts, partsOfLogLine fl reader line false = .ok parts ∧
      r.Carries parts) (physicalLines (recordsText fl records)) records := by
  have hlines : ∀ line ∈ records.map (Record.line fl), ch '\n' ∉ line := by
    intro line hline
    obtain ⟨r, hr, rfl⟩ := List.mem_map.mp hline
    exact (h r hr).whole.newline_not_mem
  rw [recordsText_eq, journalText, physicalLines_flatten hlines, List.forall₂_map_left_iff,
    List.forall₂_same]
  exact fun r hr => (h r hr).read reader

variable (fl) in
/-- What `payload_of_log_msg` makes of a line: nothing when it returns `None`, otherwise a payload
or an exception. -/
def payloadOfLine (line : Text) : Option (Except Python.PayloadError (Python.Payload fl)) :=
  match payloadOfLogMsg fl line with
  | .ok none => none
  | .ok (some payload) => some (.ok payload)
  | .error e => some (.error e)

/-- From a front of such a log the reader gets what it gets from the first records: from exactly
those whose lines are there. -/
theorem front_reads_as_records {records : List (Record F)} (h : ∀ r ∈ records, r.Whole fl)
    {front : Text} (hpre : front <+: recordsText fl records) :
    ∃ whole rest, records = whole ++ rest ∧
      readLines (payloadOfLine fl) front = whole.filterMap (fun r => payloadOfLine fl (r.line fl)) ∧
      recordsText fl whole <+: front ++ [ch '\n'] ∧
      ∀ r ∈ rest.head?, ¬ recordsText fl whole ++ r.line fl <+: front := by
  rw [recordsText_eq] at hpre
  have hne : ∀ line ∈ records.map (Record.line fl), line ≠ [] := by
    intro line hline
    obtain ⟨r, _, rfl⟩ := List.mem_map.mp hline
    simp [Record.line, payloadLine, Python.statusLine]
  have hlines : ∀ line ∈ records.map (Record.line fl), ch '\n' ∉ line := by
    intro line hline
    obtain ⟨r, hr, rfl⟩ := List.mem_map.mp hline
    exact (h r hr).newline_not_mem
  have htear : ∀ line ∈ records.map (Record.line fl), ∀ torn, torn <+: line → torn ≠ line →
      payloadOfLine fl torn = none := by
    intro line hline torn htorn hcut
    obtain ⟨r, hr, rfl⟩ := List.mem_map.mp hline
    rw [payloadOfLine, (h r hr).torn htorn hcut]
  obtain ⟨whole, rest, hsplit, hread, hthere, hnext⟩ :=
    readLines_of_prefix (payloadOfLine fl) hne hlines htear hpre
  obtain ⟨wholeRecords, restRecords, rfl, rfl, rfl⟩ := List.map_eq_append_iff.mp hsplit
  refine ⟨wholeRecords, restRecords, rfl, ?_, ?_, fun r hr => ?_⟩
  · rw [hread, List.filterMap_map, Function.comp_def]
  · rwa [recordsText_eq]
  · rw [recordsText_eq]
    apply hnext
    rw [List.head?_map, hr]
    rfl

/-! ## Runs -/

section Runs

variable (fl) (os : Os) (order : HashOrder) (stamp : Timestamp) (env : Environ)
  (files : Text → Option Text)

/-- After a run in unified mode the Python reader finds in the files of ngen, line by line and in
order, the accepted calls and the accepted records. -/
theorem journals_read_back
    (hmode : (afterInit os order stamp env files).logger.splitLogsByModule = false)
    (reader : Json.TreeReader) (iso : Python.IsoReader) (inputs : List (Os × Input F))
    (hcalls : ∀ c ∈ ((afterInit os order stamp env files).accepted fl reader inputs).calls,
      c.Readable)
    (hrecords : ∀ q ∈ ((afterInit os order stamp env files).accepted fl reader inputs).payload,
      ∀ r ∈ q.2, r.Readable fl) :
    let start := afterInit os order stamp env files
    let p := runFrom (Process.take fl order reader) start inputs
    let j := start.accepted fl reader inputs
    (∀ s ∈ start.logger.logFile, ∃ log, p.disk.files s.path = some log ∧
      (physicalLines log).map (partsOfLogLine fl iso · false) =
        j.calls.flatMap fun c => (c.parts fl).map .ok) ∧
    ∀ q ∈ j.payload, ∃ payloads, p.disk.files q.1 = some payloads ∧
      List.Forall₂ (fun line r => ∃ parts, partsOfLogLine fl iso line false = .ok parts ∧
        r.Carries parts) (physicalLines payloads) q.2 := by
  intro start p j
  obtain ⟨hopened, hkept, hinit⟩ := shows_afterInit fl os order stamp env files hmode
  have hshows : p.Shows fl start j := hinit.run hopened hkept order reader inputs
  constructor
  · intro s hs
    have hlog := hshows.log
    rw [hs] at hlog
    obtain ⟨_, s', _, hpath, hend⟩ := hlog
    refine ⟨j.log, ?_, log_reads_as_calls fl iso hcalls⟩
    rw [← hpath]
    exact hend.file
  · intro q hq
    have hpayload := hshows.payload
    rw [hq] at hpayload
    obtain ⟨⟨s, _, hpath, hend⟩, _⟩ := hpayload
    refine ⟨recordsText fl q.2, ?_, log_reads_as_records iso (hrecords q hq)⟩
    rw [← hpath]
    exact hend.file

/-- However much of the payload log reaches the disk, the reader makes of it what it makes of the
first accepted records, of exactly those whose lines are there: a torn line is no payload and
raises no exception. -/
theorem torn_payload_log_reads
    (hmode : (afterInit os order stamp env files).logger.splitLogsByModule = false)
    (reader : Json.TreeReader) (inputs : List (Os × Input F)) {path : Text}
    {records : List (Record F)}
    (hpayload : ((afterInit os order stamp env files).accepted fl reader inputs).payload =
      some (path, records))
    (hrecords : ∀ r ∈ records, r.Whole fl) :
    ∃ payloads, (runFrom (Process.take fl order reader) (afterInit os order stamp env files)
        inputs).disk.files path = some payloads ∧
      ∀ front, front <+: payloads → ∃ whole rest, records = whole ++ rest ∧
        readLines (payloadOfLine fl) front =
          whole.filterMap (fun r => payloadOfLine fl (r.line fl)) ∧
        recordsText fl whole <+: front ++ [ch '\n'] ∧
        ∀ r ∈ rest.head?, ¬ recordsText fl whole ++ r.line fl <+: front := by
  obtain ⟨hopened, hkept, hinit⟩ := shows_afterInit fl os order stamp env files hmode
  have hshows := (hinit.run hopened hkept order reader inputs).payload
  have haccepted : (runFrom (Journals.take fl reader (afterInit os order stamp env files).logger)
      (.start (afterInit os order stamp env files).env) inputs).payload = some (path, records) :=
    hpayload
  rw [haccepted] at hshows
  obtain ⟨⟨s, _, hpath, hend⟩, _⟩ := hshows
  refine ⟨recordsText fl records, ?_, fun front => front_reads_as_records hrecords⟩
  rw [← hpath]
  exact hend.file

end Runs

/-! ## A run -/

theorem sample_readable :
    (∀ c ∈ (sampleStart.accepted SampleFloat.floats .flat sampleInputs).calls, c.Readable) ∧
      ∀ q ∈ (sampleStart.accepted SampleFloat.floats .flat sampleInputs).payload, ∀ r ∈ q.2,
        r.Readable SampleFloat.floats := by
  rw [sample_accepted]
  constructor
  · rw [List.forall_mem_singleton]
    have hid : ∀ x ∈ text "PET", (0x21 ≤ x.val ∧ x.val ≤ 0x7E) ∧
        ¬(0x61 ≤ x.val ∧ x.val ≤ 0x7A) := by decide
    exact ⟨⟨.WARNING, rfl⟩, List.cons_ne_nil _ _, hid, ⟨by decide, by decide⟩, by decide⟩
  · rintro q ⟨⟩
    rw [List.forall_mem_singleton]
    have hid : ∀ c ∈ text "PET", 0x21 ≤ c.val ∧ c.val ≤ 0x7E := by decide
    exact ⟨List.cons_ne_nil _ _, hid, ⟨.inprog, by decide, rfl⟩, Or.inr rfl, by decide, by decide⟩

theorem journals_read_back_sample :
    ∃ log, (runFrom (Process.take SampleFloat.floats insertionOrder .flat) sampleStart
        sampleInputs).disk.files (text "/run/ngen_20260618T181315.log") = some log ∧
      (physicalLines log).map (partsOfLogLine SampleFloat.floats .columns · false) =
        [text "dry", text "soil"].map fun piece => .ok ⟨some (Python.dateTimeOf default),
          some (text "PET"), some (text "WARNING"), some piece, none⟩ := by
  obtain ⟨hlog, _⟩ := journals_read_back SampleFloat.floats (levelsOs []) insertionOrder default
    logDirEnv (fun _ => none) rfl .flat .columns sampleInputs sample_readable.1 sample_readable.2
  obtain ⟨log, hfile, hread⟩ := hlog _ sample_logFile
  refine ⟨log, hfile, hread.trans ?_⟩
  have haccepted := congrArg Journals.calls sample_accepted
  change (sampleStart.accepted SampleFloat.floats .flat sampleInputs).calls.flatMap _ = _
  rw [haccepted]
  rfl

/-- Without its last characters the one record is not read. -/
theorem torn_payload_log_reads_sample :
    ∃ payloads, (runFrom (Process.take SampleFloat.floats insertionOrder .flat) sampleStart
        sampleInputs).disk.files (text "/run/ngen_payload_20260618T181315.log") = some payloads ∧
      ∀ front, front <+: payloads → front.length < 60 →
        readLines (payloadOfLine SampleFloat.floats) front = [] := by
  obtain ⟨payloads, hfile, hread⟩ := torn_payload_log_reads SampleFloat.floats (levelsOs [])
    insertionOrder default logDirEnv (fun _ => none) rfl .flat sampleInputs
    (congrArg Journals.payload sample_accepted)
    (fun r hr => (sample_readable.2 _ (congrArg Journals.payload sample_accepted) r hr).whole)
  refine ⟨payloads, hfile, fun front hfront hlen => ?_⟩
  obtain ⟨whole, rest, hsplit, hfront', hthere, _⟩ := hread front hfront
  have hnone : whole = [] := by
    cases whole with
    | nil => rfl
    | cons r whole =>
      rw [List.cons_append, List.cons.injEq] at hsplit
      have hle := hthere.length_le
      rw [recordsText, List.map_cons, List.flatten_cons, ← hsplit.1, List.length_append,
        List.length_append, List.length_singleton] at hle
      have hlong : 61 < (Record.written SampleFloat.floats ⟨default, text "PET",
          ⟨text "IN_PROGRESS", .half, [], text "NULL"⟩⟩).length := by decide +kernel
      omega
  rw [hfront', hnone, List.filterMap_nil]

end Ewts.Ngen
