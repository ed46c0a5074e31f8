import Ewts.Correctness.Records
import Ewts.Integration.Ngen.Log

/-!
# Python payloads through the ngen bridge

A payload is written by Python, taken apart by the property tree of ngen, written again
and read by Python. It comes back exactly when its status is not `NULL`, both texts are
given, and these hold no control that `EscapeJson` forgets and no surrogate: `None`
becomes the text `null`, because the tree does not tell it from a string.
-/

namespace Ewts.Ngen

open Json
open Python (decodedStr strValue record dumpsOption payloadOfLogMsg sentinelStart sentinelEnd
  WrittenProg)

variable {F : Type} {fl : Floats F}

/-! ## From the message to the fields -/

/-- Between its sentinels a wrapped payload holds its JSON text. -/
theorem extractJsonPayload_wrapped (sent : Python.Payload fl)
    (h : ¬ sentinelEnd <:+: sent.json) :
    extractJsonPayload (cStr sent.jsonWrapped) = .ok sent.json := by
  have hnul : ∀ c ∈ sent.jsonWrapped, c ≠ 0 := by
    rintro c hc rfl
    exact absurd (sent.jsonWrapped_printable 0 hc).1 (by decide)
  have hbegin : sent.jsonWrapped.dropInfix? kPayloadBeginSentinel =
      some ([], sent.json ++ sentinelEnd) := by
    have hhead : ch '<' ∉ text "MSG_DATA>" := by decide
    have hnil : ¬ (ch '<' :: text "MSG_DATA>") <:+: [] := by decide
    have hdrop := dropInfix?_append (b := sent.json ++ sentinelEnd) hhead hnil
    rw [List.nil_append] at hdrop
    rw [Python.Payload.jsonWrapped, List.append_assoc]
    exact hdrop
  have hend : ∃ r, sent.jsonWrapped.dropInfix? kPayloadEndSentinel = some r := by
    obtain ⟨a, b, hr⟩ := dropInfix?_isSome_of_infix
      (List.suffix_append (sentinelStart ++ sent.json) sentinelEnd).isInfix
    exact ⟨_, hr⟩
  have hjson : (sent.json ++ sentinelEnd).dropInfix? kPayloadEndSentinel =
      some (sent.json, []) := by
    have hhead : ch '<' ∉ text "/MSG_DATA>" := by decide
    have hdrop := dropInfix?_append (b := []) hhead h
    rw [List.append_nil] at hdrop
    exact hdrop
  obtain ⟨r, hr⟩ := hend
  rw [cStr_of_no_nul hnul]
  simp only [extractJsonPayload, hbegin, hr, hjson]

/-- The data of an optional text in the tree. -/
def treeText (o : Option Text) : Text := (o.map decodedStr).getD (text "null")

/-- The data of the progress in the tree. -/
def treeProg (sent : Python.Payload fl) : Text := dumpsOption fl.repr sent.prog

/-- The children of the tree that is read from a payload. -/
def treeOf (sent : Python.Payload fl) : List (Text × Text) :=
  [(text "status", sent.status.value), (text "prog", treeProg sent),
    (text "msg", treeText sent.msg), (text "modnm", treeText sent.modnm)]

theorem leafText_strValue (o : Option Text) :
    leafText (strValue (o.map decodedStr)) = some (treeText o) := by
  cases o <;> rfl

theorem leafText_prog {prog : Option F} {v : Value} (h : WrittenProg fl prog v) :
    leafText v = some (dumpsOption fl.repr prog) := by
  cases h with
  | none => rfl
  | some _ htext _ => exact congrArg some htext

/-- A payload is read as a flat object of these children. -/
theorem isText_tree (sent : Python.Payload fl) : ∃ ms,
    IsText anyNumeral sent.json (.obj ms) ∧ leaves ms = some (treeOf sent) := by
  obtain ⟨v, hprog, htext⟩ := sent.isText_json
  refine ⟨_, htext.mono fun _ _ => trivial, ?_⟩
  simp only [record, leaves, List.mapM_cons, List.mapM_nil, leafText_strValue,
    leafText_prog hprog]
  rfl

/-- The tree holds surrogates when one of its two texts does. -/
theorem treeOf_scalar_iff (sent : Python.Payload fl) :
    (∀ kv ∈ treeOf sent, kv.1.Scalar ∧ kv.2.Scalar) ↔
      (treeText sent.msg).Scalar ∧ (treeText sent.modnm).Scalar := by
  have hkeys : ∀ k ∈ Python.fieldNames, k.Scalar := by decide
  have hprog : (treeProg sent).Scalar := fun c hc => (sent.prog_printable c hc).isSurrogate
  have hstatus := sent.status.value_scalar
  simp only [Python.fieldNames, List.forall_mem_cons, List.not_mem_nil, false_implies,
    implies_true, and_true] at hkeys
  simp [treeOf, hkeys, hprog, hstatus]

/-- The fields that are logged for a payload whose tree was read. -/
def bridgedFields (sent : Python.Payload fl) : PayloadFields F where
  status := sent.status.value
  prog := (fl.ofStream (treeProg sent)).getD fl.minusOne
  msg := treeText sent.msg
  modnm := treeText sent.modnm

/-- Progress keeps its absence and its range. -/
theorem bridgedProg (sent : Python.Payload fl) :
    (fl.negative (bridgedFields sent).prog = true ∨ fl.inUnit (bridgedFields sent).prog = true) ∧
      (fl.negative (bridgedFields sent).prog = true ↔ sent.prog = none) := by
  cases hp : sent.prog with
  | none =>
    have hprog : (bridgedFields sent).prog = fl.minusOne := by
      simp only [bridgedFields, treeProg, hp, dumpsOption, fl.stream_null, Option.getD_none]
    rw [hprog]
    exact ⟨Or.inl fl.minusOne_negative, iff_of_true fl.minusOne_negative rfl⟩
  | some x =>
    have hx := sent.prog_inUnit x hp
    have hprog : (bridgedFields sent).prog = x := by
      simp only [bridgedFields, treeProg, hp, dumpsOption, fl.stream_repr x hx, Option.getD_some]
    rw [hprog, (fl.inUnit_bounds x hx).2]
    exact ⟨Or.inr hx, iff_of_false Bool.false_ne_true (by simp)⟩

variable (reader : TreeReader)

/-- What the JSON overload logs for a payload: its fields when both texts of the tree are
UTF-8, a complaint about the payload otherwise. -/
theorem fieldsOfMessage_wrapped (sent : Python.Payload fl) (h : ¬ sentinelEnd <:+: sent.json) :
    ((treeText sent.msg).Scalar ∧ (treeText sent.modnm).Scalar →
      fieldsOfMessage fl reader (some sent.jsonWrapped) = bridgedFields sent) ∧
    (¬((treeText sent.msg).Scalar ∧ (treeText sent.modnm).Scalar) → ∃ e, e.Scalar ∧
      fieldsOfMessage fl reader (some sent.jsonWrapped) =
        malformedFields fl.minusOne (text "Malformed payload JSON: " ++ e)) := by
  obtain ⟨ms, htext, hleaves⟩ := isText_tree sent
  have hextract := extractJsonPayload_wrapped sent h
  refine ⟨fun hscalar => ?_, fun hsurrogate => ?_⟩
  · have hread := reader.reads_flat _ ms _ htext hleaves ((treeOf_scalar_iff sent).mpr hscalar)
    simp only [fieldsOfMessage, hextract, hread]
    rfl
  · have hjson : sent.json.Scalar := fun c hc => (sent.json_printable c hc).isSurrogate
    obtain ⟨e, he⟩ := reader.refuses_surrogates _ ms _ hjson htext hleaves
      fun hs => hsurrogate ((treeOf_scalar_iff sent).mp hs)
    refine ⟨e, reader.error_scalar _ e he, ?_⟩
    simp only [fieldsOfMessage, hextract, he]

/-! ## The whole way -/

/-- Sending a payload appends one record, and the reader returns from that record the
status and the texts that were sent, and a progress when one was sent. -/
def SurvivesBridge (p : Process) (os : Os) (order : HashOrder) (clock : Clock) (ewtsId path
    content : Text) (sent : Python.Payload fl) : Prop :=
  ∃ a, (p.ewtsNgenLog fl os order reader clock (some ewtsId) 60
      (some sent.jsonWrapped)).PayloadOpen path
        (content ++ payloadRecord fl clock.line (p.recordId ewtsId) a) ∧
    ∃ q, payloadOfLogMsg fl (payloadRecord fl clock.line (p.recordId ewtsId) a) = .ok (some q) ∧
      q.status = sent.status ∧ q.msg = sent.msg ∧ q.modnm = sent.modnm ∧
      (q.prog = none ↔ sent.prog = none)

/-- `None`, or a text that is neither empty nor `NULL` and holds no closing sentinel. -/
def Sendable (o : Option Text) : Prop :=
  ∀ t ∈ o, t ≠ [] ∧ t ≠ payloadNull ∧ ¬ sentinelEnd <:+: t

/-- A text is given, its controls are escaped and it holds no surrogates. -/
def Carried (o : Option Text) : Prop := ∃ t ∈ o, Clean t ∧ t.Scalar

section Bridge

variable {p : Process} {path content : Text} {os : Os} {order : HashOrder} {reader}
  {clock : Clock} {ewtsId : Text} {sent : Python.Payload fl}

/-- The record that the bridge appends is the one of the extracted fields. -/
theorem survivesBridge_iff_read (hopen : p.PayloadOpen path content) :
    SurvivesBridge reader p os order clock ewtsId path content sent ↔
      ∃ q, payloadOfLogMsg fl (payloadLine fl clock.line (p.recordId ewtsId)
          (fieldsOfMessage fl reader (some sent.jsonWrapped)) ++ [ch '\n']) = .ok (some q) ∧
        q.status = sent.status ∧ q.msg = sent.msg ∧ q.modnm = sent.modnm ∧
        (q.prog = none ↔ sent.prog = none) := by
  have hwrite := hopen.logPayload fl os order clock ewtsId
    (fieldsOfMessage fl reader (some sent.jsonWrapped))
  have hcall : p.ewtsNgenLog fl os order reader clock (some ewtsId) 60 (some sent.jsonWrapped) =
      p.logPayload fl os order clock ewtsId
        (fieldsOfMessage fl reader (some sent.jsonWrapped)) := rfl
  rw [← payloadRecord_eq]
  constructor
  · rintro ⟨a, hopen', hread⟩
    rw [hcall] at hopen'
    have hrecord := List.append_cancel_left (hopen'.content_unique hwrite)
    rw [hrecord] at hread
    exact hread
  · rintro hread
    exact ⟨_, hcall ▸ hwrite, hread⟩

theorem Sendable.not_holdsEnd {o : Option Text} (h : Sendable o) : ¬ Python.HoldsEnd o :=
  fun ⟨t, ht, hend⟩ => (h t ht).2.2 hend

theorem not_infix_sendable (hm : Sendable sent.msg) (hn : Sendable sent.modnm) :
    ¬ sentinelEnd <:+: sent.json :=
  sent.not_infix_json hm.not_holdsEnd hn.not_holdsEnd

/-- A carried text is in the tree as it was sent. -/
theorem Carried.treeText {o : Option Text} (h : Carried o) (hsend : Sendable o) :
    (treeText o).Scalar ∧ memberText (treeText o) = o ∧ ¬ Breaks (treeText o) := by
  obtain ⟨t, ht, hclean, hscalar⟩ := h
  obtain ⟨hne, hnull, hend⟩ := hsend t ht
  cases ht
  have htree : Ngen.treeText (some t) = t := Python.decodedStr_of_scalar hscalar
  rw [htree]
  exact ⟨hscalar, memberText_of_ne hne hnull, not_or.mpr ⟨not_not_intro hclean, hend⟩⟩

/-- A text that comes back was carried. -/
theorem carried_of_returned {o : Option Text} (hscalar : (Ngen.treeText o).Scalar)
    (hbreaks : ¬ Breaks (Ngen.treeText o)) (h : o = memberText (Ngen.treeText o)) : Carried o := by
  cases o with
  | none => cases h
  | some t =>
    rw [Ngen.treeText, Option.map_some, Option.getD_some] at *
    have htree : Python.decodedStr t = t := by
      unfold memberText at h
      split at h
      · cases h
      · exact (Option.some.inj h).symm
    rw [htree] at hscalar hbreaks
    exact ⟨t, rfl, clean_of_not_breaks hbreaks, hscalar⟩

/-- Everything that the bridge carries comes back. -/
theorem survivesBridge_of_carried (hopen : p.PayloadOpen path content) (hm : Sendable sent.msg)
    (hn : Sendable sent.modnm) (hs : sent.status ≠ .null) (hcm : Carried sent.msg)
    (hcn : Carried sent.modnm) :
    SurvivesBridge reader p os order clock ewtsId path content sent := by
  obtain ⟨hmscalar, hmsg, hmbreaks⟩ := hcm.treeText hm
  obtain ⟨hnscalar, hmodnm, hnbreaks⟩ := hcn.treeText hn
  obtain ⟨hprog, hnone⟩ := bridgedProg sent
  have hbreaks : ∀ t ∈ (bridgedFields sent).texts, ¬ Breaks t :=
    not_breaks_of_registered rfl hmbreaks hnbreaks
  have hfin := writesNumber_of_inUnit hprog
  obtain ⟨q, hparse, hstatus, hqprog, hqmsg, hqmodnm⟩ := parsePayload_inUnit
    (memberText_status hs : memberText (bridgedFields sent).status = _) hprog hbreaks
  have hline : ¬ sentinelStart <:+: [ch '\n'] := by decide
  rw [survivesBridge_iff_read hopen,
    (fieldsOfMessage_wrapped reader sent (not_infix_sendable hm hn)).1 ⟨hmscalar, hnscalar⟩]
  exact ⟨q, (payloadOfLogMsg_line hfin hbreaks hline).1 q hparse, hstatus, hqmsg.trans hmsg,
    hqmodnm.trans hmodnm, hqprog.none_iff.trans hnone⟩

/-- Nothing else does. -/
theorem SurvivesBridge.carried (h : SurvivesBridge reader p os order clock ewtsId path content sent)
    (hopen : p.PayloadOpen path content) (hm : Sendable sent.msg) (hn : Sendable sent.modnm) :
    sent.status ≠ .null ∧ Carried sent.msg ∧ Carried sent.modnm := by
  have hline : ¬ sentinelStart <:+: [ch '\n'] := by decide
  have hfields := fieldsOfMessage_wrapped reader sent (not_infix_sendable hm hn)
  obtain ⟨q, hread, hstatus, hmsg, hmodnm, _⟩ := (survivesBridge_iff_read hopen).mp h
  by_cases hscalar : (Ngen.treeText sent.msg).Scalar ∧ (Ngen.treeText sent.modnm).Scalar
  · rw [hfields.1 hscalar] at hread
    obtain ⟨hbreaks, hvalue, hqmsg, hqmodnm⟩ :=
      fields_of_accepted (writesNumber_of_inUnit (bridgedProg sent).1) hread hline
    refine ⟨fun hnull => ?_, ?_, ?_⟩
    · have hstatus : (bridgedFields sent).status = payloadNull := by
        rw [bridgedFields, hnull]
        rfl
      rw [hstatus] at hvalue
      cases hvalue
    · exact carried_of_returned hscalar.1 (hbreaks _ (by simp [PayloadFields.texts, bridgedFields]))
        (hmsg.symm.trans hqmsg)
    · exact carried_of_returned hscalar.2 (hbreaks _ (by simp [PayloadFields.texts, bridgedFields]))
        (hmodnm.symm.trans hqmodnm)
  · -- The complaint has no module name, and its text holds no surrogates.
    obtain ⟨e, he, hmalformed⟩ := hfields.2 hscalar
    rw [hmalformed] at hread
    obtain ⟨_, _, hqmsg, hqmodnm⟩ :=
      fields_of_accepted (writesNumber_of_inUnit (Or.inl fl.minusOne_negative)) hread hline
    have hcomplaint : (text "Malformed payload JSON: " ++ e).Scalar := by
      have hfixed : (text "Malformed payload JSON: ").Scalar := by decide
      exact fun c hc => (List.mem_append.mp hc).elim (hfixed c) (he c)
    have hgiven : memberText (text "Malformed payload JSON: " ++ e) =
        some (text "Malformed payload JSON: " ++ e) :=
      memberText_of_ne (by simp [text]) fun h => by simp [text, payloadNull] at h
    have hnone : (Ngen.treeText (memberText [])).Scalar := by decide
    refine absurd ?_ hscalar
    rw [← hmsg, ← hmodnm, hqmsg, hqmodnm, malformedFields, hgiven]
    refine ⟨?_, hnone⟩
    rw [Ngen.treeText, Option.map_some, Option.getD_some, Python.decodedStr_of_scalar hcomplaint]
    exact hcomplaint

/-- A payload survives the bridge exactly when its status is not `NULL` and both of its
texts are given, hold no control but tab, newline and return, and hold no surrogate. -/
theorem survivesBridge_iff (hopen : p.PayloadOpen path content) (hm : Sendable sent.msg)
    (hn : Sendable sent.modnm) :
    SurvivesBridge reader p os order clock ewtsId path content sent ↔
      sent.status ≠ .null ∧ Carried sent.msg ∧ Carried sent.modnm :=
  ⟨fun h => h.carried hopen hm hn, fun ⟨hs, hcm, hcn⟩ =>
    survivesBridge_of_carried hopen hm hn hs hcm hcn⟩

end Bridge

/-- A payload with a progress and a message over two lines. -/
private def sampleSent : Python.Payload SampleFloat.floats :=
  ⟨.inprog, some .half, some (text "\"half\"\n"), some (text "t-route"), SampleFloat.inUnit_half⟩

theorem survivesBridge_iff_sample :
    SurvivesBridge TreeReader.flat (Process.payloadStart (text "/run/payload.log")) (levelsOs [])
      insertionOrder default (text "PET") (text "/run/payload.log") [] sampleSent := by
  have hm : Sendable sampleSent.msg := by
    rintro t ⟨⟩
    decide
  have hn : Sendable sampleSent.modnm := by
    rintro t ⟨⟩
    decide
  have hcm : Carried sampleSent.msg := ⟨_, rfl, by decide⟩
  have hcn : Carried sampleSent.modnm := ⟨_, rfl, by decide⟩
  exact (survivesBridge_iff (Process.payloadOpen_start _) hm hn).mpr ⟨by decide, hcm, hcn⟩

/-- A payload without a message: `Payload(Status.INPROG, prog=0.5, modnm="t-route")`. -/
private def sampleSilent : Python.Payload SampleFloat.floats :=
  ⟨.inprog, some .half, none, some (text "t-route"), SampleFloat.inUnit_half⟩

theorem silent_payload_changed :
    ¬ SurvivesBridge TreeReader.flat (Process.payloadStart (text "/run/payload.log")) (levelsOs [])
      insertionOrder default (text "PET") (text "/run/payload.log") [] sampleSilent := by
  have hm : Sendable sampleSilent.msg := by
    rintro t ⟨⟩
  have hn : Sendable sampleSilent.modnm := by
    rintro t ⟨⟩
    decide
  intro h
  obtain ⟨t, ht, _⟩ := (h.carried (Process.payloadOpen_start _) hm hn).2.1
  cases ht

end Ewts.Ngen
