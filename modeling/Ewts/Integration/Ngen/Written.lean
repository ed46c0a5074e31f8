import Ewts.Integration.Ngen.Payload
import Ewts.Runtime.Python.LogLine
import Ewts.Runtime.Python.Written

/-!
# What LogPayload writes

`EscapeJson` spells a text as long as its only controls are tab, newline and return; any
other control stands raw in the string token, which no reader accepts. The sentinels are
those of the Python runtime, and a record is one of its status lines.
-/

namespace Ewts.Ngen

open Json
open Python (strValue record loads loadsDialect sentinelStart sentinelEnd fieldNames statusLine
  spaces)

/-- The text that a string member stands for; `add_string` writes `null` for two of them. -/
def memberText (value : Text) : Option Text :=
  if value = [] ∨ value = payloadNull then none else some value

/-- A text that is not a null is a member. -/
theorem memberText_of_ne {s : Text} (hne : s ≠ []) (hnull : s ≠ payloadNull) :
    memberText s = some s := by
  rw [memberText, if_neg (not_or.mpr ⟨hne, hnull⟩)]

/-- Every registered status but `NULL` is written as itself. -/
theorem memberText_status {s : Python.Status} (hs : s ≠ .null) :
    memberText s.value = some s.value := by
  cases s <;> first | exact absurd rfl hs | decide

/-- A text that breaks its record: a control that is not escaped, or a closing sentinel. -/
def Breaks (s : Text) : Prop := ¬ Clean s ∨ sentinelEnd <:+: s

instance (s : Text) : Decidable (Breaks s) := inferInstanceAs (Decidable (_ ∨ _))

/-- A text that breaks no record is clean. -/
theorem clean_of_not_breaks {s : Text} (h : ¬ Breaks s) : Clean s :=
  Classical.not_not.mp (not_or.mp h).1

/-- It does not hold the closing sentinel either. -/
theorem not_infix_of_not_breaks {s : Text} (h : ¬ Breaks s) : ¬ sentinelEnd <:+: s :=
  (not_or.mp h).2

/-! ## Escapes -/

/-- `EscapeJson` copies a character or puts one letter behind a backslash. -/
theorem escapeChar_cases (c : CodePoint) :
    escapeChar c = [c] ∧ c ∉ [ch '"', ch '\\', ch '\n', ch '\r', ch '\t'] ∨
      ∃ e ∈ [ch '"', ch '\\', ch 'n', ch 'r', ch 't'],
        escapeChar c = [ch '\\', e] ∧ shortEscapes.lookup e = some c := by
  by_cases hc : c ∈ [ch '"', ch '\\', ch '\n', ch '\r', ch '\t']
  · apply Or.inr
    simp only [List.mem_cons, List.not_mem_nil, or_false] at hc
    rcases hc with rfl | rfl | rfl | rfl | rfl
    · exact ⟨ch '"', by decide, rfl, rfl⟩
    · exact ⟨ch '\\', by decide, rfl, rfl⟩
    · exact ⟨ch 'n', by decide, rfl, rfl⟩
    · exact ⟨ch 'r', by decide, rfl, rfl⟩
    · exact ⟨ch 't', by decide, rfl, rfl⟩
  · refine Or.inl ⟨?_, hc⟩
    simp only [List.mem_cons, List.not_mem_nil, or_false, not_or] at hc
    obtain ⟨hq, hb, hn, hr, ht⟩ := hc
    rw [escapeChar, if_neg hq, if_neg hb, if_neg hn, if_neg hr, if_neg ht]

/-- A character that may stand in a JSON phrase is spelled. -/
theorem spelling_escapeChar {c : CodePoint} (h : c.isControl = true → isWs c = true) :
    Spelling (escapeChar c) [.plain c] := by
  rcases escapeChar_cases c with ⟨hc, hmem⟩ | ⟨e, _, hc, he⟩
  · rw [hc]
    have hctl : c.isControl = false := by
      by_contra hctl
      rw [Bool.not_eq_false] at hctl
      have hws := h hctl
      simp only [CodePoint.isControl, isWs, Bool.or_eq_true, decide_eq_true_eq] at hctl hws
      rcases hws with ((hv | hv) | hv) | hv
      · omega
      all_goals
        apply hmem
      · rw [show c = ch '\t' from Fin.ext hv]
        decide
      · rw [show c = ch '\n' from Fin.ext hv]
        decide
      · rw [show c = ch '\r' from Fin.ext hv]
        decide
    simp only [List.mem_cons, List.not_mem_nil, or_false, not_or] at hmem
    exact .raw hctl hmem.1 hmem.2.1
  · rw [hc]
    exact .short he

/-- An escaped clean text spells its characters. -/
theorem spelling_escapeJson {s : Text} (h : Clean s) :
    Spelling (escapeJson s) (s.map .plain) := by
  have hs : Spelling (s.flatMap escapeChar) (s.flatMap fun c => [.plain c]) :=
    .flatMap fun c hc => spelling_escapeChar (h c hc)
  rwa [← List.map_eq_flatMap] at hs

/-- A control other than tab, newline and return is not escaped. -/
theorem escapeChar_control {c : CodePoint} (hctl : c.isControl = true) (hws : isWs c = false) :
    escapeChar c = [c] := by
  rcases escapeChar_cases c with ⟨hc, _⟩ | ⟨e, he, _, hl⟩
  · exact hc
  · have htable : ∀ e ∈ [ch '"', ch '\\', ch 'n', ch 'r', ch 't'],
        ((shortEscapes.lookup e).all fun d => !d.isControl || isWs d) = true := by decide
    have hd := htable e he
    rw [hl, Option.all_some, hctl, hws] at hd
    cases hd

/-- No reader passes a string token with such a control. -/
theorem scanUnits_unclean {s : Text} (h : ¬ Clean s) (r : Text) :
    scanUnits (escapeJson s ++ r) = none := by
  obtain ⟨a, c, b, rfl, ha, hctl, hws⟩ := exists_control_of_not_clean h
  have hescape : escapeJson (a ++ c :: b) ++ r = escapeJson a ++ c :: (escapeJson b ++ r) := by
    simp only [escapeJson, List.flatMap_append, List.flatMap_cons, escapeChar_control hctl hws,
      List.append_assoc, List.cons_append, List.nil_append]
  rw [hescape]
  exact (spelling_escapeJson ha).scan_control hctl _

/-- Without its closing quotation mark a string token is refused, whatever it spells. -/
theorem scanUnits_escapeJson (s : Text) : scanUnits (escapeJson s) = none := by
  by_cases h : Clean s
  · exact (spelling_escapeJson h).scan_truncated
  · have hnil := scanUnits_unclean h []
    rwa [List.append_nil] at hnil

/-- The closing sentinel is copied, and no escape writes a character of it. -/
theorem escapeChar_sentinelEnd :
    EscapesAround escapeChar sentinelEnd ∧ ∀ c ∈ sentinelEnd, escapeChar c = [c] := by
  refine ⟨fun c => ?_, by decide⟩
  rcases escapeChar_cases c with ⟨hc, _⟩ | ⟨e, he, hc, _⟩
  · exact Or.inl hc
  · have hforeign : ∀ d ∈ [ch '"', ch '\\', ch 'n', ch 'r', ch 't'], d ∉ sentinelEnd := by decide
    rw [hc]
    refine Or.inr ⟨by simp, fun d hd => ?_⟩
    rcases List.mem_pair.mp hd with rfl | rfl
    · exact hforeign _ (by decide)
    · exact hforeign _ he

/-- An escaped text is one line. -/
theorem escapeChar_unbroken {c d : CodePoint} (hd : d ∈ escapeChar c) :
    d ≠ ch '\n' ∧ d ≠ ch '\r' := by
  rcases escapeChar_cases c with ⟨hc, hmem⟩ | ⟨e, he, hc, _⟩
  · rw [hc, List.mem_singleton] at hd
    subst hd
    refine ⟨?_, ?_⟩ <;> rintro rfl <;> exact hmem (by decide)
  · have hletters : ∀ d ∈ ch '\\' :: [ch '"', ch '\\', ch 'n', ch 'r', ch 't'],
        d ≠ ch '\n' ∧ d ≠ ch '\r' := by decide
    rw [hc] at hd
    rcases List.mem_pair.mp hd with rfl | rfl
    · exact hletters _ (by decide)
    · exact hletters _ (List.mem_cons_of_mem _ he)

/-! ## Members -/

/-- A written clean text is read back, or is a null. -/
theorem reads_writtenString {ok : Numeral → Prop} {s : Text} (h : Clean s) (t : Text) :
    Reads ok (.value (strValue (memberText s))) (writtenString s ++ t) t := by
  unfold writtenString memberText
  split
  · exact .nullLit t
  · have hb := (spelling_escapeJson h).body (StringBody.close t)
    rw [List.append_nil] at hb
    have hr : Reads ok _ _ _ := .str hb
    rw [joinPairs_plain] at hr
    rw [List.cons_append, List.cons_append, List.append_assoc]
    exact hr

variable {F : Type} {fl : Floats F}

/-- `add_double` writes `null` or a number, neither an infinity nor a NaN. -/
def WritesNumber (fl : Floats F) (x : F) : Prop := fl.negative x = false → fl.finite x = true

/-- A progress of the unit interval is written as a number. -/
theorem writesNumber_of_inUnit {x : F} (h : fl.negative x = true ∨ fl.inUnit x = true) :
    WritesNumber fl x := by
  intro hneg
  rcases h with hneg' | hunit
  · rw [hneg] at hneg'
    cases hneg'
  · exact (fl.inUnit_bounds x hunit).1

/-- The JSON value of a written progress. The Python reader makes a double of its number,
which stays in the unit interval when the progress lies there. -/
inductive ProgValue (fl : Floats F) (x : F) : Value → Prop where
  | null (h : fl.negative x = true) : ProgValue fl x .null
  | num {n : Numeral} {y : F} (h : fl.negative x = false) (htext : n.text = fl.print x)
      (hread : fl.ofNumeral n = some y) (hunit : fl.inUnit x = true → fl.inUnit y = true) :
      ProgValue fl x (.num n)

/-- Such a progress is written as such a value, in characters of no sentinel or line break. -/
theorem exists_progValue {x : F} (hfin : WritesNumber fl x) :
    (∃ v, ProgValue fl x v ∧ ∀ t, Reads (fun n => loadsDialect.accepts n = true) (.value v)
      (writtenDouble fl x ++ t) t) ∧
    ∀ c ∈ writtenDouble fl x, c ≠ ch '<' ∧ c ≠ ch '\n' ∧ c ≠ ch '\r' := by
  unfold writtenDouble
  cases hneg : fl.negative x with
  | true =>
    rw [if_pos rfl]
    exact ⟨⟨.null, .null hneg, .nullLit⟩, by decide⟩
  | false =>
    rw [if_neg Bool.false_ne_true]
    obtain ⟨n, hwf, hlen, htext, y, hread, hunit⟩ := fl.print_reads x (hfin hneg) hneg
    refine ⟨⟨.num n, .num hneg htext hread hunit, fun t => ?_⟩, fun c hc => ?_⟩
    · have hok : loadsDialect.accepts n = true := by
        have hdigits := (List.length_filter_le CodePoint.isDigit n.int).trans hlen
        rw [loadsDialect, Bool.or_eq_true]
        exact Or.inr (decide_eq_true hdigits)
      have hr : Reads (fun n => loadsDialect.accepts n = true) _ _ _ := .num hwf hok t
      rwa [htext] at hr
    · rw [← htext] at hc
      have hr := isNumeralChar_range (hwf.numeralChars c hc)
      refine ⟨?_, ?_, ?_⟩ <;> rintro rfl <;> revert hr <;> decide

namespace PayloadFields

/-- The members of a record; `v` is the JSON value of its progress. -/
def members (fl : Floats F) (a : PayloadFields F) (v : Value) : List Member :=
  [⟨text "status", writtenString a.status, strValue (memberText a.status)⟩,
    ⟨text "prog", writtenDouble fl a.prog, v⟩,
    ⟨text "msg", writtenString a.msg, strValue (memberText a.msg)⟩,
    ⟨text "modnm", writtenString a.modnm, strValue (memberText a.modnm)⟩]

/-- What a reader finds in a record; `v` is the JSON value of its progress. -/
def decoded (a : PayloadFields F) (v : Value) : Value :=
  .obj (record (strValue (memberText a.status)) v (memberText a.msg) (memberText a.modnm))

/-- The text fields, in the order of a record. -/
def texts (a : PayloadFields F) : List Text := [a.status, a.msg, a.modnm]

variable {a : PayloadFields F}

/-- The text of a record is the text of its members. -/
theorem json_eq (v : Value) :
    payloadJson fl a = renderObject [] ((a.members fl v).map Member.spelled) :=
  payloadJson_eq fl a

private theorem text_sound {ok : Numeral → Prop} {key : Text} (hkey : key ∈ fieldNames) {s : Text}
    (hs : Clean s) : Member.Sound ok ⟨key, writtenString s, strValue (memberText s)⟩ :=
  ⟨(Python.fieldNames_plain key hkey).1, reads_writtenString hs⟩

private theorem key_mem : text "status" ∈ fieldNames ∧ text "prog" ∈ fieldNames ∧
    text "msg" ∈ fieldNames ∧ text "modnm" ∈ fieldNames := by
  simp [fieldNames]

/-- A record whose texts are clean is the JSON text of its fields. -/
theorem isText_json (hfin : WritesNumber fl a.prog) (h : ∀ s ∈ a.texts, Clean s) :
    ∃ v, ProgValue fl a.prog v ∧
      IsText (fun n => loadsDialect.accepts n = true) (payloadJson fl a) (a.decoded v) := by
  obtain ⟨⟨v, hv, hread⟩, _⟩ := exists_progValue hfin
  simp only [texts, List.forall_mem_cons, List.not_mem_nil, false_implies, implies_true,
    and_true] at h
  obtain ⟨hs, hm, hn⟩ := h
  obtain ⟨kstatus, kprog, kmsg, kmodnm⟩ := key_mem
  have hsound : ∀ m ∈ a.members fl v, m.Sound fun n => loadsDialect.accepts n = true := by
    simp only [members, List.forall_mem_cons, List.not_mem_nil, false_implies, implies_true,
      and_true]
    exact ⟨text_sound kstatus hs, ⟨(Python.fieldNames_plain _ kprog).1, hread⟩,
      text_sound kmsg hm, text_sound kmodnm hn⟩
  have hgap : ∀ c ∈ ([] : Text), isWs c = true := by simp
  have htext := isText_renderObject hgap hsound (by simp [members])
  rw [← json_eq] at htext
  exact ⟨v, hv, htext⟩

/-- What `json.loads` makes of such a record. -/
theorem loads_json (hfin : WritesNumber fl a.prog) (h : ∀ s ∈ a.texts, Clean s) :
    ∃ v, ProgValue fl a.prog v ∧ loads (payloadJson fl a) = some (a.decoded v) := by
  obtain ⟨v, hv, htext⟩ := isText_json hfin h
  refine ⟨v, hv, ?_⟩
  rw [← htext.scanText, json_eq v]
  exact Python.loads_brace _

/-! ## Characters -/

/-- A written text is one line. -/
private theorem writtenString_unbroken (s : Text) :
    ∀ c ∈ writtenString s, c ≠ ch '\n' ∧ c ≠ ch '\r' := by
  have hlayout : ∀ c ∈ ch '"' :: text "null", c ≠ ch '\n' ∧ c ≠ ch '\r' := by decide
  unfold writtenString
  split
  · exact fun c hc => hlayout c (List.mem_cons_of_mem _ hc)
  · intro c hc
    simp only [List.cons_append, List.mem_cons, List.mem_append, List.not_mem_nil, or_false,
      escapeJson, List.mem_flatMap] at hc
    rcases hc with rfl | ⟨d, _, hd⟩ | rfl
    · exact hlayout _ (List.mem_cons_self ..)
    · exact escapeChar_unbroken hd
    · exact hlayout _ (List.mem_cons_self ..)

/-- The object of a record is one line. -/
theorem json_unbroken (hfin : WritesNumber fl a.prog) :
    ∀ c ∈ payloadJson fl a, c ≠ ch '\n' ∧ c ≠ ch '\r' := by
  have hlayout : ∀ c ∈ [ch '"', ch ':', ch ',', ch '{', ch '}'], c ≠ ch '\n' ∧ c ≠ ch '\r' := by
    decide
  have hkey : ∀ k ∈ fieldNames, ∀ c ∈ k, c ≠ ch '\n' ∧ c ≠ ch '\r' := by decide
  obtain ⟨kstatus, kprog, kmsg, kmodnm⟩ := key_mem
  intro c hc
  rw [payloadJson_eq] at hc
  rcases mem_renderObject hc with hc | hc
  · exact hlayout c (by rwa [List.append_nil] at hc)
  · simp only [List.exists_mem_cons_iff, List.not_mem_nil, false_and, exists_false, or_false] at hc
    rcases hc with (hk | hv) | (hk | hv) | (hk | hv) | (hk | hv)
    · exact hkey _ kstatus c hk
    · exact writtenString_unbroken _ c hv
    · exact hkey _ kprog c hk
    · exact ((exists_progValue hfin).2 c hv).2
    · exact hkey _ kmsg c hk
    · exact writtenString_unbroken _ c hv
    · exact hkey _ kmodnm c hk
    · exact writtenString_unbroken _ c hv

/-! ## The closing sentinel -/

private theorem not_infix_writtenString {s : Text} (h : ¬ sentinelEnd <:+: s) :
    ¬ sentinelEnd <:+: writtenString s := by
  have hne : sentinelEnd ≠ [] := by decide
  have hquote : ch '"' ∉ sentinelEnd := by decide
  obtain ⟨hesc, hid⟩ := escapeChar_sentinelEnd
  unfold writtenString
  split
  · decide
  · intro hi
    have hi := infix_append_of_disjoint (a := [ch '"']) hne (by simpa using hquote) hi
    rcases infix_append_sep hquote hne hi with hi | hi
    · exact h ((infix_flatMap_iff hne hesc hid).mp hi)
    · exact hne (List.infix_nil.mp hi)

private theorem not_infix_writtenDouble {x : F} (hfin : WritesNumber fl x) :
    ¬ sentinelEnd <:+: writtenDouble fl x :=
  fun hi => ((exists_progValue hfin).2 (ch '<') (hi.subset (by decide))).1 rfl

private theorem foreign_end : ForeignTo [] sentinelEnd := by decide

/-- Without a closing sentinel in its texts, a record holds none in its object. -/
theorem not_infix_json (hfin : WritesNumber fl a.prog) (h : ∀ s ∈ a.texts, ¬ sentinelEnd <:+: s) :
    ¬ sentinelEnd <:+: payloadJson fl a := by
  obtain ⟨kstatus, kprog, kmsg, kmodnm⟩ := key_mem
  have hkey := Python.not_infix_key
  intro hi
  rw [payloadJson_eq] at hi
  have hmem := infix_renderObject foreign_end hi
  simp only [List.exists_mem_cons_iff, List.not_mem_nil, false_and, exists_false,
    or_false] at hmem
  simp only [texts, List.forall_mem_cons, List.not_mem_nil, false_implies, implies_true,
    and_true] at h
  rcases hmem with (hk | hv) | (hk | hv) | (hk | hv) | (hk | hv)
  · exact hkey _ kstatus hk
  · exact not_infix_writtenString h.1 hv
  · exact hkey _ kprog hk
  · exact not_infix_writtenDouble hfin hv
  · exact hkey _ kmsg hk
  · exact not_infix_writtenString h.2.1 hv
  · exact hkey _ kmodnm hk
  · exact not_infix_writtenString h.2.2 hv

/-- A member that the reader passes over. -/
private def Intact (m : Member) : Prop :=
  m.Sound (fun n => loadsDialect.accepts n = true) ∧
    ¬ sentinelEnd <:+: m.key ∧ ¬ sentinelEnd <:+: m.written

/-- With such a text, what the reader takes for the object is refused. -/
private theorem cut_at_text {ms : List Member} (hms : ∀ m ∈ ms, Intact m) {key : Text}
    (hkey : key ∈ fieldNames) {s : Text} (hs : Breaks s) (tail : List (Text × Text)) :
    ∃ content rest,
      renderObject [] (ms.map Member.spelled ++ (key, writtenString s) :: tail) ++ sentinelEnd =
        content ++ sentinelEnd ++ rest ∧
      ¬ sentinelEnd <:+: content ∧ loads content = none := by
  obtain ⟨hesc, hid⟩ := escapeChar_sentinelEnd
  have hgap : ∀ c ∈ ([] : Text), isWs c = true := by simp
  have hsound := fun m hm => (hms m hm).1
  have hclean := fun m hm => (hms m hm).2
  have hplain := (Python.fieldNames_plain key hkey).1
  have hkeyend := Python.not_infix_key key hkey
  have hgiven : writtenString s = ch '"' :: s.flatMap escapeChar ++ [ch '"'] := by
    have hnil : ¬ Breaks [] := by decide
    have hnull : ¬ Breaks payloadNull := by decide
    refine if_neg (not_or.mpr ⟨?_, ?_⟩)
    · rintro rfl
      exact hnil hs
    · rintro rfl
      exact hnull hs
  rw [hgiven]
  by_cases hend : sentinelEnd <:+: s
  · obtain ⟨content, rest, hrender, hfirst, hscan⟩ := cut_in_string hgap foreign_end hesc hid
      scanUnits_escapeJson hsound hclean hplain hkeyend hend tail
    refine ⟨_, rest ++ sentinelEnd, ?_, hfirst, (Python.loads_brace content).trans hscan⟩
    rw [hrender, List.append_assoc]
  · obtain ⟨content, rest, hrender, hfirst, hscan⟩ := cut_behind_string hgap foreign_end hesc hid
      hsound hclean hplain hkeyend hend (scanUnits_unclean (hs.resolve_right hend)) tail
    exact ⟨_, rest, hrender, hfirst, (Python.loads_brace content).trans hscan⟩

/-- A text that breaks its record, whichever field it is in. The first such field decides,
because the members before it are sound. -/
theorem cut_json (hfin : WritesNumber fl a.prog) (h : ∃ s ∈ a.texts, Breaks s) :
    ∃ content rest, payloadJson fl a ++ sentinelEnd = content ++ sentinelEnd ++ rest ∧
      ¬ sentinelEnd <:+: content ∧ loads content = none := by
  obtain ⟨⟨v, _, hread⟩, _⟩ := exists_progValue hfin
  obtain ⟨kstatus, kprog, kmsg, kmodnm⟩ := key_mem
  have hprog : Intact ⟨text "prog", writtenDouble fl a.prog, v⟩ :=
    ⟨⟨(Python.fieldNames_plain _ kprog).1, hread⟩, Python.not_infix_key _ kprog,
      not_infix_writtenDouble hfin⟩
  have htext : ∀ {key s : Text}, key ∈ fieldNames → ¬ Breaks s →
      Intact ⟨key, writtenString s, strValue (memberText s)⟩ := by
    intro key s hkey hs
    exact ⟨text_sound hkey (clean_of_not_breaks hs), Python.not_infix_key key hkey,
      not_infix_writtenString (not_infix_of_not_breaks hs)⟩
  rw [payloadJson_eq]
  by_cases hstatus : Breaks a.status
  · have hnone : ∀ m ∈ ([] : List Member), Intact m := by simp
    exact cut_at_text hnone kstatus hstatus _
  · by_cases hmsg : Breaks a.msg
    · have htwo : ∀ m ∈ (a.members fl v).take 2, Intact m := by
        simpa [members] using And.intro (htext kstatus hstatus) hprog
      exact cut_at_text htwo kmsg hmsg [_]
    · have hmodnm : Breaks a.modnm := by
        simpa [texts, hstatus, hmsg] using h
      have hthree : ∀ m ∈ (a.members fl v).take 3, Intact m := by
        simpa [members] using And.intro (htext kstatus hstatus) (And.intro hprog (htext kmsg hmsg))
      exact cut_at_text hthree kmodnm hmodnm []

end PayloadFields

/-! ## Lines -/

/-- An id is cut or filled up to eight characters. -/
theorem padEwtsId_eq (id : Text) :
    padEwtsId id = (toUpper id).take 8 ++ spaces (8 - id.length) := by
  rw [padEwtsId, fixedWidth, toUpper, List.length_map]
  rfl

/-- A record without its newline. -/
def payloadLine (fl : Floats F) (now : Timestamp) (moduleName : Text) (a : PayloadFields F) :
    Text :=
  statusLine now (padEwtsId moduleName) (sentinelStart ++ payloadJson fl a ++ sentinelEnd)

theorem length_padEwtsId (id : Text) : (padEwtsId id).length = 8 := by
  rw [padEwtsId, fixedWidth, List.length_append, List.length_take, List.length_replicate]
  omega

/-- A record of an unbroken id is one line. -/
theorem payloadLine_unbroken {now : Timestamp} {id : Text} {a : PayloadFields F}
    (hfin : WritesNumber fl a.prog) (hid : ∀ c ∈ toUpper id, c ≠ ch '\n' ∧ c ≠ ch '\r') :
    ∀ c ∈ payloadLine fl now id a, c ≠ ch '\n' ∧ c ≠ ch '\r' := by
  have hfixed : ∀ c ∈ sentinelStart ++ sentinelEnd ++ text "STATUS ",
      c ≠ ch '\n' ∧ c ≠ ch '\r' := by decide
  have hblank : ch ' ' ≠ ch '\n' ∧ ch ' ' ≠ ch '\r' := by simp
  intro c hc
  simp only [payloadLine, statusLine, padEwtsId_eq, List.mem_append, List.mem_cons] at hc
  rcases hc with ((hc | rfl | hc | hc) | rfl | hc) | rfl | (hc | hc) | hc
  · have hbreak := (Python.iso_plain hc).2.1
    refine ⟨?_, ?_⟩ <;> rintro rfl <;> exact absurd hbreak (by decide)
  · exact hblank
  · exact hid c (List.mem_of_mem_take hc)
  · rw [(List.mem_replicate.mp hc).2]
    exact hblank
  · exact hblank
  · exact hfixed c (by simp [hc])
  · exact hblank
  · exact hfixed c (by simp [hc])
  · exact PayloadFields.json_unbroken hfin c hc
  · exact hfixed c (by simp [hc])

/-- A record is one line. -/
theorem payloadRecord_eq (now : Timestamp) (moduleName : Text) (a : PayloadFields F) :
    payloadRecord fl now moduleName a = payloadLine fl now moduleName a ++ [ch '\n'] := by
  have hlevel : levelToFixedString 60 = text "STATUS " := by decide
  rw [payloadRecord, hlevel, payloadLine, statusLine]
  simp only [List.append_assoc, List.cons_append, List.nil_append]
  rfl

end Ewts.Ngen
