import Ewts.Integration.Ngen.Policy
import Ewts.Integration.Ngen.Written
import Ewts.Runtime.Python.LogLine

/-!
# Payload records of ngen

The object of a record is well-formed JSON exactly when no text of it holds a control that
`EscapeJson` forgets. The Python reader takes a record apart again; what it refuses are
broken texts, a status that was written as `null`, and a progress that is printed above one.
-/

namespace Ewts.Ngen

open Json
open Python (strValue record parsePayload payloadOfLogMsg partsOfLogLine sentinelStart sentinelEnd)

variable {F : Type} {fl : Floats F}

/-! ## Well-formed objects -/

/-- The object of a record is one RFC 8259 object of its four members, in order: texts
decode to the given ones, and the progress is `null` or the printed number. -/
def WellFormedRecord (fl : Floats F) (a : PayloadFields F) : Prop :=
  ∃ prog, (prog = .null ∨ ∃ n, prog = .num n ∧ n.text = fl.print a.prog) ∧
    IsText anyNumeral (payloadJson fl a) (.obj (record (strValue (memberText a.status)) prog
      (memberText a.msg) (memberText a.modnm)))

/-- A control that is not escaped stands in the object as it is. -/
theorem mem_payloadJson_of_control {a : PayloadFields F} {s : Text} (hs : s ∈ a.texts)
    {c : CodePoint} (hc : c ∈ s) (hctl : c.isControl = true) (hws : isWs c = false) :
    c ∈ payloadJson fl a := by
  have hnull : ∀ d ∈ payloadNull, d.isControl = false := by decide
  have hwritten : c ∈ writtenString s := by
    have hne : ¬(s = [] ∨ s = payloadNull) := by
      rintro (rfl | rfl)
      · cases hc
      · rw [hnull c hc] at hctl
        cases hctl
    have hescape : c ∈ escapeJson s := by
      refine List.mem_flatMap.mpr ⟨c, hc, ?_⟩
      rw [escapeChar_control hctl hws]
      exact List.mem_singleton_self c
    rw [writtenString, if_neg hne]
    simp [hescape]
  simp only [PayloadFields.texts, List.mem_cons, List.not_mem_nil, or_false] at hs
  rw [payloadJson_eq]
  rcases hs with rfl | rfl | rfl <;> simp [renderObject, renderMembers, renderMember, hwritten]

/-- The controls of a well-formed object are tabs, newlines and returns. -/
theorem WellFormedRecord.clean {a : PayloadFields F} (h : WellFormedRecord fl a) :
    ∀ s ∈ a.texts, Clean s := by
  obtain ⟨prog, _, htext⟩ := h
  intro s hs c hc hctl
  by_contra hws
  rw [Bool.not_eq_true] at hws
  have hclean := htext.clean c (mem_payloadJson_of_control hs hc hctl hws) hctl
  rw [hws] at hclean
  cases hclean

/-- The object is well-formed exactly when its texts hold no control other than tab,
newline and return. -/
theorem wellFormedRecord_iff {a : PayloadFields F} (hfin : fl.finite a.prog = true) :
    WellFormedRecord fl a ↔ ∀ s ∈ [a.status, a.msg, a.modnm], Clean s := by
  refine ⟨fun h => h.clean, fun h => ?_⟩
  obtain ⟨v, hv, htext⟩ := PayloadFields.isText_json (fun _ => hfin) h
  have hanyNumeral := htext.mono fun _ _ => (trivial : anyNumeral _)
  cases hv with
  | null _ => exact ⟨.null, Or.inl rfl, hanyNumeral⟩
  | num _ hprint _ _ => exact ⟨_, Or.inr ⟨_, rfl, hprint⟩, hanyNumeral⟩

/-- Quotation marks, backslashes and a line break in the message. -/
private def sampleFields : PayloadFields SampleFloat :=
  ⟨text "IN_PROGRESS", .half, text "\"C:\\run\"\n", text "NULL"⟩

theorem wellFormedRecord_iff_sample : WellFormedRecord SampleFloat.floats sampleFields ↔
    ∀ s ∈ [sampleFields.status, sampleFields.msg, sampleFields.modnm], Clean s :=
  wellFormedRecord_iff rfl

/-- U+0001 in a message stands raw in the object. -/
theorem start_of_heading_not_wellFormed :
    ¬ WellFormedRecord SampleFloat.floats ⟨text "ERROR", .half, [0x01], text "PET"⟩ :=
  fun h => absurd (h.clean [0x01] (by simp [PayloadFields.texts])) (by decide)

/-! ## The reader -/

section Reader

variable {a : PayloadFields F} {now : Timestamp} {id rest : Text}

theorem payloadLine_append : payloadLine fl now id a ++ rest =
    Python.statusLine now (padEwtsId id) [] ++ sentinelStart ++
      (payloadJson fl a ++ sentinelEnd ++ rest) := by
  rw [payloadLine, Python.statusLine_append]
  simp only [List.append_assoc]

theorem payloadLine_rest : payloadLine fl now id a ++ rest = Python.statusLine now (padEwtsId id)
    (sentinelStart ++ payloadJson fl a ++ sentinelEnd ++ rest) := by
  rw [payloadLine, Python.statusLine_append, List.append_assoc, ← Python.statusLine_append]

/-- Up to the closing sentinel a record without a breaking text holds its object. -/
theorem findall_line (hfin : WritesNumber fl a.prog) (h : ∀ s ∈ a.texts, ¬ Breaks s)
    (hrest : ¬ sentinelStart <:+: rest) :
    Python.findall (payloadLine fl now id a ++ rest) = [payloadJson fl a] := by
  have hend := PayloadFields.not_infix_json hfin fun s hs => not_infix_of_not_breaks (h s hs)
  have hlf : ch '\n' ∉ payloadJson fl a := fun hc => (PayloadFields.json_unbroken hfin _ hc).1 rfl
  rw [payloadLine_append, Python.findall_append (Python.not_infix_statusLine now
    (Nat.le_of_eq (length_padEwtsId id))) hend hlf, Python.findall_of_not_infix hrest]

/-- Such a record is accepted or refused as its object is. -/
theorem payloadOfLogMsg_line (hfin : WritesNumber fl a.prog) (h : ∀ s ∈ a.texts, ¬ Breaks s)
    (hrest : ¬ sentinelStart <:+: rest) :
    (∀ q, parsePayload fl (payloadJson fl a) = .ok q →
      payloadOfLogMsg fl (payloadLine fl now id a ++ rest) = .ok (some q)) ∧
    ∀ e, parsePayload fl (payloadJson fl a) = .error e →
      payloadOfLogMsg fl (payloadLine fl now id a ++ rest) =
        .error (.invalid (payloadLine fl now id a ++ rest) (payloadJson fl a) e) := by
  refine ⟨fun q hq => ?_, fun e he => ?_⟩
  · rw [payloadOfLogMsg, findall_line hfin h hrest]
    simp only [hq]
  · rw [payloadOfLogMsg, findall_line hfin h hrest]
    simp only [he]

/-- A record with a breaking text is refused. -/
theorem payloadOfLogMsg_breaks (hfin : WritesNumber fl a.prog) (h : ∃ s ∈ a.texts, Breaks s) :
    ∃ e, payloadOfLogMsg fl (payloadLine fl now id a ++ rest) = .error e := by
  obtain ⟨content, after, hjson, hfirst, hrefused⟩ := PayloadFields.cut_json hfin h
  have hlf : ch '\n' ∉ content := by
    intro hc
    have hmem : ch '\n' ∈ payloadJson fl a ++ sentinelEnd := by
      rw [hjson]
      simp [hc]
    rcases List.mem_append.mp hmem with hc | hc
    · exact (PayloadFields.json_unbroken hfin _ hc).1 rfl
    · revert hc
      decide
  have hafter : content ++ sentinelEnd ++ after ++ rest =
      content ++ sentinelEnd ++ (after ++ rest) := List.append_assoc ..
  rw [payloadLine_append, hjson, hafter]
  exact Python.payloadOfLogMsg_refused fl
    (Python.not_infix_statusLine now (Nat.le_of_eq (length_padEwtsId id))) hfirst hlf hrefused

/-- What `json.loads` makes of a record with a registered status. -/
theorem loads_registered {s : Python.Status} (hs : memberText a.status = some s.value)
    (hfin : WritesNumber fl a.prog) (h : ∀ s ∈ a.texts, ¬ Breaks s) :
    ∃ v, ProgValue fl a.prog v ∧ Python.loads (payloadJson fl a) =
      some (.obj (record (.str s.value) v (memberText a.msg) (memberText a.modnm))) := by
  obtain ⟨v, hv, hloads⟩ :=
    PayloadFields.loads_json hfin fun s hs => clean_of_not_breaks (h s hs)
  rw [PayloadFields.decoded, hs] at hloads
  exact ⟨v, hv, hloads⟩

/-- What is read of a written progress: nothing of a negative one, and otherwise the double of
its printed digits. -/
inductive PrintedProg (fl : Floats F) (x : F) : Option F → Prop
  | null (h : fl.negative x = true) : PrintedProg fl x none
  | digits {n : Json.Numeral} {y : F} (h : fl.negative x = false) (htext : n.text = fl.print x)
      (hread : fl.ofNumeral n = some y) : PrintedProg fl x (some y)

theorem PrintedProg.none_iff {x : F} {prog : Option F} (h : PrintedProg fl x prog) :
    prog = none ↔ fl.negative x = true := by
  cases h with
  | null hneg => exact iff_of_true rfl hneg
  | digits hneg _ _ =>
    rw [hneg]
    exact iff_of_false (by simp) Bool.false_ne_true

/-- A record with a registered status is accepted when its progress is negative or lies in
the unit interval. -/
theorem parsePayload_inUnit {s : Python.Status} (hs : memberText a.status = some s.value)
    (hprog : fl.negative a.prog = true ∨ fl.inUnit a.prog = true)
    (h : ∀ s ∈ a.texts, ¬ Breaks s) :
    ∃ q, parsePayload fl (payloadJson fl a) = .ok q ∧ q.status = s ∧
      PrintedProg fl a.prog q.prog ∧ q.msg = memberText a.msg ∧ q.modnm = memberText a.modnm := by
  obtain ⟨v, hv, hloads⟩ := loads_registered hs (writesNumber_of_inUnit hprog) h
  cases hv with
  | null hneg =>
    exact ⟨_, Python.parsePayload_record_null fl hloads, rfl, .null hneg, rfl, rfl⟩
  | num hneg htext hread hunit =>
    have hnot : ¬ fl.negative a.prog = true := by
      rw [hneg]
      exact Bool.false_ne_true
    have hy := hunit (hprog.resolve_left hnot)
    exact ⟨_, Python.parsePayload_record_num fl hloads hread hy, rfl, .digits hneg htext hread,
      rfl, rfl⟩

/-- A printed progress is judged by the double that the reader makes of its digits. -/
theorem parsePayload_printed {s : Python.Status} (hs : memberText a.status = some s.value)
    (hfin : fl.finite a.prog = true) (hneg : fl.negative a.prog = false)
    (h : ∀ s ∈ a.texts, ¬ Breaks s) :
    ∃ n y, n.text = fl.print a.prog ∧ fl.ofNumeral n = some y ∧
      (fl.inUnit y = true → ∃ q, parsePayload fl (payloadJson fl a) = .ok q ∧ q.status = s ∧
        q.prog = some y ∧ q.msg = memberText a.msg ∧ q.modnm = memberText a.modnm) ∧
      (fl.inUnit y = false → parsePayload fl (payloadJson fl a) = .error (.fields
        [.valueError (text "prog: expect value between 0.0 and 1.0, got " ++ fl.repr y)])) := by
  obtain ⟨v, hv, hloads⟩ := loads_registered hs (fun _ => hfin) h
  cases hv with
  | null hneg' =>
    rw [hneg] at hneg'
    cases hneg'
  | num _ htext hread _ =>
    refine ⟨_, _, htext, hread, fun hy => ?_, fun hy => ?_⟩
    · exact ⟨_, Python.parsePayload_record_num fl hloads hread hy, rfl, rfl, rfl, rfl⟩
    · exact Python.parsePayload_record_outside fl hloads hread hy

/-- An accepted record gives back its texts, and none of them breaks it. -/
theorem fields_of_accepted (hfin : WritesNumber fl a.prog) {q : Python.Payload fl}
    (h : payloadOfLogMsg fl (payloadLine fl now id a ++ rest) = .ok (some q))
    (hrest : ¬ sentinelStart <:+: rest) :
    (∀ s ∈ a.texts, ¬ Breaks s) ∧ memberText a.status = some q.status.value ∧
      q.msg = memberText a.msg ∧ q.modnm = memberText a.modnm := by
  have hbreaks : ∀ s ∈ a.texts, ¬ Breaks s := by
    intro s hs hb
    obtain ⟨e, he⟩ := payloadOfLogMsg_breaks hfin ⟨s, hs, hb⟩
    rw [he] at h
    cases h
  obtain ⟨v, _, hloads⟩ :=
    PayloadFields.loads_json hfin fun s hs => clean_of_not_breaks (hbreaks s hs)
  have hparse : parsePayload fl (payloadJson fl a) = .ok q := by
    cases hp : parsePayload fl (payloadJson fl a) with
    | ok q' =>
      rw [(payloadOfLogMsg_line hfin hbreaks hrest).1 q' hp] at h
      cases h
      rfl
    | error e =>
      rw [(payloadOfLogMsg_line hfin hbreaks hrest).2 e hp] at h
      cases h
  obtain ⟨hstatus, hmsg, hmodnm⟩ := Python.fields_of_record fl hloads hparse
  refine ⟨hbreaks, ?_, hmsg, hmodnm⟩
  cases hs : memberText a.status with
  | none =>
    rw [hs] at hstatus
    cases hstatus
  | some t =>
    rw [hs] at hstatus
    cases hstatus
    rfl

end Reader

/-! ## Written records -/

section Written

variable {p : Process} {path content : Text} (os : Os) (order : HashOrder) (clock : Clock)
  {ewtsId : Text} {s : Python.Status} {a : PayloadFields F}

theorem recordId_of_no_nul (p : Process) (hne : ewtsId ≠ []) (h : ∀ c ∈ ewtsId, c ≠ 0) :
    p.recordId ewtsId = ewtsId := by
  rw [Process.recordId, cStr_of_no_nul h, if_neg hne]

/-- Upper-casing keeps printable characters apart from white space. -/
theorem isSpace_of_mem_toUpper {id : Text} (h : ∀ c ∈ id, 0x21 ≤ c.val ∧ c.val ≤ 0x7E) :
    ∀ c ∈ toUpper id, Python.isSpace c = false := by
  intro c hc
  obtain ⟨d, hd, rfl⟩ := List.mem_map.mp hc
  rw [Python.isSpace_toUpper]
  exact Python.isSpace_of_graphic (h d hd)

/-- A registered status is written as itself. -/
theorem memberText_registered (hs : s ≠ .null) (hstatus : a.status = s.value) :
    memberText a.status = some s.value := by
  rw [hstatus]
  exact memberText_status hs

/-- A registered status breaks no record. -/
theorem not_breaks_of_registered (hstatus : a.status = s.value) (hmsg : ¬ Breaks a.msg)
    (hmodnm : ¬ Breaks a.modnm) : ∀ t ∈ a.texts, ¬ Breaks t := by
  have hvalue : ¬ Breaks s.value := by cases s <;> decide
  simp [PayloadFields.texts, hstatus, hvalue, hmsg, hmodnm]

/-- A record of a registered status, a progress that is negative or in the unit interval, and
texts that do not break it is one line, and both readers return its fields. -/
theorem payload_record_round_trip (reader : Python.IsoReader) (hopen : p.PayloadOpen path content)
    (hne : ewtsId ≠ []) (hid : ∀ c ∈ ewtsId, 0x21 ≤ c.val ∧ c.val ≤ 0x7E) (hs : s ≠ .null)
    (hstatus : a.status = s.value) (hprog : fl.negative a.prog = true ∨ fl.inUnit a.prog = true)
    (hmsg : ¬ Breaks a.msg) (hmodnm : ¬ Breaks a.modnm) : ∃ line, ∃ q : Python.Payload fl,
      (p.logPayload fl os order clock ewtsId a).PayloadOpen path (content ++ (line ++ [ch '\n'])) ∧
      (∀ c ∈ line, c ≠ ch '\n' ∧ c ≠ ch '\r') ∧
      (q.status = s ∧ (q.prog = none ↔ fl.negative a.prog = true) ∧ q.msg = memberText a.msg ∧
        q.modnm = memberText a.modnm) ∧
      ∀ rest ∈ [[], [ch '\n']], payloadOfLogMsg fl (line ++ rest) = .ok (some q) ∧
        ∃ parts, partsOfLogLine fl reader (line ++ rest) false = .ok parts ∧
          parts.payload = some q ∧ parts.level = some (text "STATUS") ∧
          parts.module = some ((toUpper ewtsId).take 8) := by
  have hbreaks := not_breaks_of_registered hstatus hmsg hmodnm
  have hfin := writesNumber_of_inUnit hprog
  have hvalue := memberText_registered hs hstatus
  obtain ⟨q, hparse, hqs, hqp, hqtexts⟩ := parsePayload_inUnit hvalue hprog hbreaks
  have hspace := isSpace_of_mem_toUpper hid
  have hnul : ∀ c ∈ ewtsId, c ≠ 0 := by
    rintro c hc rfl
    exact absurd (hid 0 hc).1 (by decide)
  have hid8 : ∀ c ∈ (toUpper ewtsId).take 8, Python.isSpace c = false :=
    fun c hc => hspace c (List.mem_of_mem_take hc)
  have hne8 : (toUpper ewtsId).take 8 ≠ [] := by
    rw [ne_eq, List.take_eq_nil_iff]
    simp [toUpper, hne]
  have hlen8 : ((toUpper ewtsId).take 8).length + (8 - ewtsId.length) ≤ 8 := by
    rw [List.length_take, toUpper, List.length_map]
    omega
  have hend := PayloadFields.not_infix_json hfin fun t ht => not_infix_of_not_breaks (hbreaks t ht)
  have hlf : ch '\n' ∉ payloadJson fl a := fun hc => (PayloadFields.json_unbroken hfin _ hc).1 rfl
  have hwrite := hopen.logPayload fl os order clock ewtsId a
  rw [payloadRecord_eq, recordId_of_no_nul p hne hnul] at hwrite
  refine ⟨_, q, hwrite, ?_, ⟨hqs, hqp.none_iff, hqtexts⟩, fun rest hrest => ?_⟩
  · refine payloadLine_unbroken hfin fun c hc => ?_
    have hnot := hspace c hc
    refine ⟨?_, ?_⟩ <;> rintro rfl <;> exact absurd hnot (by decide)
  · have hstart : ¬ sentinelStart <:+: rest := by
      revert rest
      decide
    refine ⟨(payloadOfLogMsg_line hfin hbreaks hstart).1 q hparse, ?_⟩
    have hread := Python.partsOfLogLine_wrapped reader clock.line hne8 hid8 hlen8 hend hlf hparse
      hstart
    rw [← padEwtsId_eq, ← payloadLine_rest] at hread
    exact ⟨_, hread, rfl, rfl, rfl⟩

/-- A quoted message over two lines, from a module without a name. -/
private def sampleTwoLines : PayloadFields SampleFloat :=
  ⟨Python.Status.inprog.value, .half, text "say \"go\"\n\\", []⟩

theorem payload_record_round_trip_pet : ∃ line, ∃ q : Python.Payload SampleFloat.floats,
    ((Process.payloadStart (text "/run/payload.log")).logPayload SampleFloat.floats (levelsOs [])
      insertionOrder default (text "pet") sampleTwoLines).PayloadOpen (text "/run/payload.log")
        (line ++ [ch '\n']) ∧
    q.status = .inprog ∧ q.msg = some (text "say \"go\"\n\\") ∧ q.modnm = none ∧
    payloadOfLogMsg SampleFloat.floats (line ++ [ch '\n']) = .ok (some q) := by
  have hid : ∀ c ∈ text "pet", 0x21 ≤ c.val ∧ c.val ≤ 0x7E := by decide
  have hs : Python.Status.inprog ≠ .null := by decide
  have hprog : SampleFloat.floats.negative sampleTwoLines.prog = true ∨
      SampleFloat.floats.inUnit sampleTwoLines.prog = true := Or.inr rfl
  have hmsg : ¬ Breaks sampleTwoLines.msg := by decide
  have hmodnm : ¬ Breaks sampleTwoLines.modnm := by decide
  obtain ⟨line, q, hwrite, _, ⟨hs, _, hm, hn⟩, hread⟩ := payload_record_round_trip (levelsOs [])
    insertionOrder default Python.IsoReader.columns
    (Process.payloadOpen_start (text "/run/payload.log")) (List.cons_ne_nil _ _) hid hs rfl hprog
    hmsg hmodnm
  rw [List.nil_append] at hwrite
  exact ⟨line, q, hwrite, hs, hm, hn, (hread [ch '\n'] (by simp)).1⟩

/-- A progress above one is written as its six digits. The reader takes what these digits
denote: it accepts the record when that lies in the unit interval, and refuses it otherwise. -/
theorem over_range_record_read (hopen : p.PayloadOpen path content) (hs : s ≠ .null)
    (hstatus : a.status = s.value) (hfin : fl.finite a.prog = true)
    (habove : fl.negative a.prog = false ∧ fl.inUnit a.prog = false) (hmsg : ¬ Breaks a.msg)
    (hmodnm : ¬ Breaks a.modnm) : ∃ record n y,
      (p.logPayload fl os order clock ewtsId a).PayloadOpen path (content ++ record) ∧
      n.text = fl.print a.prog ∧ fl.ofNumeral n = some y ∧
      (fl.inUnit y = true → ∃ q, payloadOfLogMsg fl record = .ok (some q) ∧ q.status = s ∧
        q.prog = some y ∧ q.msg = memberText a.msg ∧ q.modnm = memberText a.modnm) ∧
      (fl.inUnit y = false → ∃ raw, payloadOfLogMsg fl record = .error (.invalid record raw (.fields
        [.valueError (text "prog: expect value between 0.0 and 1.0, got " ++ fl.repr y)]))) := by
  have hbreaks := not_breaks_of_registered hstatus hmsg hmodnm
  have hline : ¬ sentinelStart <:+: [ch '\n'] := by decide
  have hwrite := hopen.logPayload fl os order clock ewtsId a
  have hvalue := memberText_registered hs hstatus
  obtain ⟨n, y, htext, hread, hin, hout⟩ := parsePayload_printed hvalue hfin habove.1 hbreaks
  rw [payloadRecord_eq] at hwrite
  refine ⟨_, n, y, hwrite, htext, hread, fun hy => ?_, fun hy => ?_⟩
  · obtain ⟨q, hq, hfields⟩ := hin hy
    exact ⟨q, (payloadOfLogMsg_line (fun _ => hfin) hbreaks hline).1 q hq, hfields⟩
  · exact ⟨_, (payloadOfLogMsg_line (fun _ => hfin) hbreaks hline).2 _ (hout hy)⟩

/-- The double that the sample reader makes of a printed progress. -/
private theorem read_sample {x y : SampleFloat} {n : Numeral} (htext : n.text = x.print)
    (hread : SampleFloat.floats.ofNumeral n = some y) : SampleFloat.ofText x.print = some y := by
  rw [← htext]
  exact hread

/-- A progress that six digits cannot tell from one. -/
private def sampleRounded : PayloadFields SampleFloat :=
  ⟨Python.Status.inprog.value, .overOne, text "late", text "PET"⟩

theorem over_range_record_read_rounded : ∃ record, ∃ q : Python.Payload SampleFloat.floats,
    ((Process.payloadStart (text "/run/payload.log")).logPayload SampleFloat.floats (levelsOs [])
      insertionOrder default (text "PET") sampleRounded).PayloadOpen (text "/run/payload.log")
        record ∧
    payloadOfLogMsg SampleFloat.floats record = .ok (some q) ∧ q.status = .inprog := by
  have hs : Python.Status.inprog ≠ .null := by decide
  have hfin : SampleFloat.floats.finite sampleRounded.prog = true := rfl
  have habove : SampleFloat.floats.negative sampleRounded.prog = false ∧
      SampleFloat.floats.inUnit sampleRounded.prog = false := ⟨rfl, rfl⟩
  have hmsg : ¬ Breaks sampleRounded.msg := by decide
  have hmodnm : ¬ Breaks sampleRounded.modnm := by decide
  obtain ⟨record, n, y, hwrite, htext, hread, hin, _⟩ := over_range_record_read (levelsOs [])
    insertionOrder default (Process.payloadOpen_start (text "/run/payload.log")) hs rfl hfin habove
    hmsg hmodnm
  have hone : SampleFloat.ofText SampleFloat.overOne.print = some .one := by decide
  rw [List.nil_append] at hwrite
  cases hone.symm.trans (read_sample htext hread)
  obtain ⟨q, hq, hstatus, _⟩ := hin rfl
  exact ⟨record, q, hwrite, hq, hstatus⟩

/-- A progress of two. -/
private def sampleTwo : PayloadFields SampleFloat :=
  ⟨Python.Status.inprog.value, .two, text "late", text "PET"⟩

/-- It is written, and the reader raises. -/
theorem two_refused : ∃ record e,
    ((Process.payloadStart (text "/run/payload.log")).logPayload SampleFloat.floats (levelsOs [])
      insertionOrder default (text "PET") sampleTwo).PayloadOpen (text "/run/payload.log") record ∧
    payloadOfLogMsg SampleFloat.floats record = .error e := by
  have hmsg : ¬ Breaks sampleTwo.msg := by decide
  have hmodnm : ¬ Breaks sampleTwo.modnm := by decide
  have hstatus : sampleTwo.status = Python.Status.inprog.value := rfl
  have hbreaks := not_breaks_of_registered hstatus hmsg hmodnm
  have hline : ¬ sentinelStart <:+: [ch '\n'] := by decide
  have hvalue := memberText_registered (by decide) hstatus
  have hfin : SampleFloat.floats.finite sampleTwo.prog = true := rfl
  have hwrite := (Process.payloadOpen_start (text "/run/payload.log")).logPayload SampleFloat.floats
    (levelsOs []) insertionOrder default (text "PET") sampleTwo
  obtain ⟨n, y, htext, hread, _, hout⟩ := parsePayload_printed hvalue hfin rfl hbreaks
  have htwo : SampleFloat.ofText SampleFloat.two.print = some .two := by decide
  cases htwo.symm.trans (read_sample htext hread)
  rw [payloadRecord_eq, List.nil_append] at hwrite
  exact ⟨_, _, hwrite, (payloadOfLogMsg_line (fun _ => hfin) hbreaks hline).2 _ (hout rfl)⟩

end Written

end Ewts.Ngen
