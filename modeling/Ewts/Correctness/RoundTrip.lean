import Ewts.Runtime.Python.LogLine
import Ewts.Runtime.Python.Logger
import Ewts.Runtime.Python.Written

/-!
# Status lines of the Python runtime

A payload that a standalone logger writes is one physical line, and the strict reader
returns its columns and the payload itself. A closing sentinel inside a field makes
the reader raise, because it cuts the JSON text within a string.
-/

namespace Ewts.Python

variable {F : Type} {fl : Floats F}

theorem isLineBreak_of_printable {c : CodePoint} (h : IsPrintable c) : isLineBreak c = false := by
  unfold IsPrintable at h
  simp only [isLineBreak, Bool.or_eq_false_iff, Bool.and_eq_false_iff, decide_eq_false_iff_not]
  omega

/-- The line that carries a message at `STATUS`, without its newline. -/
def writtenLine (u : Unicode) (now : Timestamp) (ewtsId message : Text) : Text :=
  statusLine now (padEwtsId u ewtsId) message

/-- A standalone logger turns an unbroken status message into one output. -/
theorem write_status (u : Unicode) {lg : EwtsLogger} (now : Timestamp) {message : Text}
    (hb : lg.bridge = false) (hne : message ≠ []) (hm : ∀ c ∈ message, isLineBreak c = false) :
    ∃ out, write u lg now 60 message = [out] ∧
      out.sunk = some (writtenLine u now lg.ewtsId message ++ [ch '\n']) := by
  have hlines : splitLines message = [message] := by
    rw [splitLines, splitlines_of_unbroken hne hm, if_neg (by simp)]
  have hline : prefixed (formatPrefix u now lg.ewtsId 60) message =
      writtenLine u now lg.ewtsId message ++ [ch '\n'] := by
    rw [formatPrefix_status, prefixed, writtenLine, statusLine]
  rw [write_standalone u now message hb (Or.inl rfl), hlines, List.map_singleton, hline]
  cases lg.logPath with
  | none => exact ⟨_, rfl, rfl⟩
  | some path => exact ⟨_, rfl, rfl⟩

/-- A payload written by a standalone logger is one physical line. Without a closing
sentinel in its fields the strict reader returns the line's columns and the payload;
with one the reader raises `ValueError`. -/
theorem status_round_trip (u : Unicode) (reader : IsoReader) (p : Payload fl)
    (hm : ∀ t ∈ p.msg, t.Scalar) (hn : ∀ t ∈ p.modnm, t.Scalar) (ewtsId : Text)
    (hne : u.upper ewtsId ≠ []) (hsp : ∀ c ∈ u.upper ewtsId, isSpace c = false)
    (lg : EwtsLogger) (hid : lg.ewtsId = u.upper ewtsId) (hb : lg.bridge = false)
    (now : Timestamp) : ∃ line,
      (∃ out, write u lg now 60 p.jsonWrapped = [out] ∧ out.sunk = some (line ++ [ch '\n'])) ∧
      (∀ c ∈ line, isLineBreak c = false) ∧
      (¬ HoldsEnd p.msg ∧ ¬ HoldsEnd p.modnm → partsOfLogLine fl reader line false =
        .ok ⟨some (dateTimeOf now), some ((u.upper ewtsId).take 8), some (text "STATUS"),
          some p.jsonWrapped, some p⟩) ∧
      (HoldsEnd p.msg ∨ HoldsEnd p.modnm → ∃ e, partsOfLogLine fl reader line false =
        .error (.payload e)) := by
  have hcol : padEwtsId u lg.ewtsId =
      (u.upper ewtsId).take 8 ++ spaces (8 - (u.upper ewtsId).length) := by
    rw [padEwtsId_eq, hid, u.upper_upper_text]
    rfl
  have hprint := p.jsonWrapped_printable
  have hid8 : ∀ c ∈ (u.upper ewtsId).take 8, isSpace c = false :=
    fun c hc => hsp c (List.mem_of_mem_take hc)
  have hne8 : (u.upper ewtsId).take 8 ≠ [] := by
    rw [ne_eq, List.take_eq_nil_iff]
    simp [hne]
  have hlen8 : ((u.upper ewtsId).take 8).length + (8 - (u.upper ewtsId).length) ≤ 8 := by
    rw [List.length_take]
    omega
  have hlf : ∀ c ∈ p.json, c ≠ ch '\n' := by
    rintro c hc rfl
    exact absurd (p.json_printable _ hc).1 (by decide)
  refine ⟨writtenLine u now lg.ewtsId p.jsonWrapped, ?_, ?_, ?_, ?_⟩
  · exact write_status u now hb (by simp [Payload.jsonWrapped, sentinelStart, text])
      fun c hc => isLineBreak_of_printable (hprint c hc)
  · rw [writtenLine, hcol]
    refine statusLine_unbroken (fun c hc => ?_) fun c hc => isLineBreak_of_printable (hprint c hc)
    rcases List.mem_append.mp hc with hc | hc
    · by_contra hbreak
      have hspace := isSpace_of_isLineBreak (Bool.not_eq_false _ ▸ hbreak)
      rw [hid8 c hc] at hspace
      cases hspace
    · rw [(List.mem_replicate.mp hc).2]
      rfl
  · rintro ⟨hmsg, hmod⟩
    rw [writtenLine, hcol]
    have hrest : ¬ sentinelStart <:+: [] := by decide
    have hread := partsOfLogLine_wrapped reader now hne8 hid8 hlen8 (p.not_infix_json hmsg hmod)
      (fun h => hlf _ h rfl) (p.parse_json hm hn) hrest
    rwa [List.append_nil] at hread
  · intro h
    obtain ⟨content, rest, hjson, hfirst, hrefused⟩ := p.cut_json h
    have hlf' : ch '\n' ∉ content := fun hc => hlf _ (by rw [hjson]; simp [hc]) rfl
    have hcols : ((u.upper ewtsId).take 8 ++ spaces (8 - (u.upper ewtsId).length)).length ≤ 8 := by
      rw [List.length_append, spaces, List.length_replicate]
      exact hlen8
    -- The first match ends at the sentinel inside the field.
    have hpre := not_infix_statusLine now hcols
    obtain ⟨e, he⟩ : ∃ e, payloadOfLogMsg fl (_ ++ sentinelStart ++
        (content ++ sentinelEnd ++ (rest ++ sentinelEnd))) = .error e :=
      payloadOfLogMsg_refused fl hpre hfirst hlf' hrefused
    have hline :
        statusLine now ((u.upper ewtsId).take 8 ++ spaces (8 - (u.upper ewtsId).length)) [] ++
          sentinelStart ++ (content ++ sentinelEnd ++ (rest ++ sentinelEnd)) =
        statusLine now ((u.upper ewtsId).take 8 ++ spaces (8 - (u.upper ewtsId).length))
          (ch '<' :: (text "MSG_DATA>" ++ p.json ++ sentinelEnd)) := by
      rw [statusLine_append now _ (ch '<' :: _), hjson]
      simp only [List.append_assoc]
      rfl
    have hmsg : payloadOfLogMsg fl (statusLine now ((u.upper ewtsId).take 8 ++
        spaces (8 - (u.upper ewtsId).length))
          (ch '<' :: (text "MSG_DATA>" ++ p.json ++ sentinelEnd))) = .error e := by
      rw [← hline]
      exact he
    rw [writtenLine, hcol]
    exact ⟨e, partsOfLogLine_status_error fl reader now hne8 hid8 rfl hmsg⟩

/-- A payload whose message holds quotes, a line break and an opening sentinel. -/
private def samplePayload : Payload SampleFloat.floats :=
  ⟨.inprog, some .half, some (text "say \"<MSG_DATA>\"\n"), none, SampleFloat.inUnit_half⟩

/-- A logger of id `PET` that prints to stdout. -/
private def sampleLogger : EwtsLogger := ⟨text "PET", false, none, none, 20, 20⟩

theorem status_round_trip_sample : ∃ line,
    (∃ out, write Unicode.ascii sampleLogger default 60 samplePayload.jsonWrapped = [out] ∧
      out.sunk = some (line ++ [ch '\n'])) ∧
    partsOfLogLine SampleFloat.floats IsoReader.columns line false =
      .ok ⟨some (dateTimeOf default), some (text "PET"), some (text "STATUS"),
        some samplePayload.jsonWrapped, some samplePayload⟩ := by
  obtain ⟨line, hw, _, hread, _⟩ := status_round_trip Unicode.ascii IsoReader.columns samplePayload
    (by simp [samplePayload]; decide) (by simp [samplePayload]) (text "pet") (by decide) (by decide)
    sampleLogger rfl rfl default
  exact ⟨line, hw, hread ⟨by decide, by decide⟩⟩

end Ewts.Python
