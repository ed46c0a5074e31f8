import Ewts.Runtime.Python.Payload

/-!
# What a payload writes

The text of a payload is one printable JSON object. Its strings hold the closing
sentinel exactly when the fields do, and cutting the text there leaves an open string
token, which no reader accepts.
-/

namespace Ewts.Python

open Json

variable {F : Type} {fl : Floats F}

/-- `dumps` copies the characters of the closing sentinel and writes none of them otherwise. -/
theorem dumpsChar_sentinelEnd :
    EscapesAround dumpsChar sentinelEnd ∧ ∀ c ∈ sentinelEnd, dumpsChar c = [c] := by
  have hchars : ∀ c ∈ sentinelEnd, dumpsChar c = [c] ∧ c ≠ ch '\\' ∧ c ≠ ch '"' ∧
      ¬(0x30 ≤ c.val ∧ c.val ≤ 0x39) ∧ ¬(0x61 ≤ c.val ∧ c.val ≤ 0x7A) := by
    decide
  refine ⟨fun c => ?_, fun c hc => (hchars c hc).1⟩
  by_cases hcopy : dumpsChar c = [c]
  · exact Or.inl hcopy
  · refine Or.inr ⟨fun hnil => ?_, fun d hd hmem => ?_⟩
    · unfold dumpsChar at hnil
      split at hnil
      · cases hnil
      · split at hnil
        · cases hnil
        · split at hnil <;> simp [unicodeEscape] at hnil
    · obtain ⟨_, hb, hq, hdig, hlow⟩ := hchars d hmem
      rcases mem_dumpsChar hd with ⟨_, hc, _⟩ | h | h | h | h
      · exact hcopy hc
      · exact hb h
      · exact hq h
      · exact hdig h
      · exact hlow h

/-- The closing sentinel in a written string. -/
theorem infix_dumpsStr_iff {s : Text} : sentinelEnd <:+: dumpsStr s ↔ sentinelEnd <:+: s := by
  have hne : sentinelEnd ≠ [] := by decide
  have hq : ch '"' ∉ sentinelEnd := by decide
  obtain ⟨hesc, hid⟩ := dumpsChar_sentinelEnd
  rw [← infix_flatMap_iff hne hesc hid (s := s)]
  constructor
  · intro h
    have h1 := infix_append_of_disjoint (a := [ch '"']) hne (by simpa using hq) h
    rcases infix_append_sep hq hne h1 with h2 | h2
    · exact h2
    · exact absurd (List.infix_nil.mp h2) hne
  · intro h
    exact h.trans ⟨[ch '"'], [ch '"'], rfl⟩

/-- Strings and `None` are phrases of JSON values. -/
theorem reads_dumpsOption {ok : Numeral → Prop} (o : Option Text) (t : Text) :
    Reads ok (.value (strValue (o.map decodedStr))) (dumpsOption dumpsStr o ++ t) t := by
  cases o with
  | none => exact .nullLit t
  | some s => exact reads_dumpsStr_decoded s t

/-- The JSON value of a written progress: `null` or a float that is read back exactly. -/
inductive WrittenProg (fl : Floats F) : Option F → Value → Prop where
  | none : WrittenProg fl none .null
  | some {x : F} {n : Numeral} (hx : fl.inUnit x = true) (htext : n.text = fl.repr x)
      (hread : fl.ofNumeral n = some x) : WrittenProg fl (some x) (.num n)

/-- The written progress is read back as a value. -/
theorem Payload.exists_progValue (p : Payload fl) : ∃ v, WrittenProg fl p.prog v ∧
    ∀ t, Reads (fun n => loadsDialect.accepts n = true) (.value v)
      (dumpsOption fl.repr p.prog ++ t) t := by
  cases hp : p.prog with
  | none => exact ⟨.null, .none, .nullLit⟩
  | some x =>
    have hx := p.prog_inUnit x hp
    obtain ⟨n, hwf, hfloat, htext, hread⟩ := fl.repr_reads x hx
    have hok : loadsDialect.accepts n = true := by
      simp only [loadsDialect, hfloat, Bool.true_or]
    refine ⟨.num n, .some hx htext hread, fun t => ?_⟩
    have hr : Reads (fun n => loadsDialect.accepts n = true) _ _ _ := .num hwf hok t
    rw [htext] at hr
    exact hr

/-- The members of a payload; `v` is the JSON value of its progress. -/
def Payload.members (p : Payload fl) (v : Value) : List Member :=
  [⟨text "status", dumpsStr p.status.value, .str p.status.value⟩,
    ⟨text "prog", dumpsOption fl.repr p.prog, v⟩,
    ⟨text "msg", dumpsOption dumpsStr p.msg, strValue (p.msg.map decodedStr)⟩,
    ⟨text "modnm", dumpsOption dumpsStr p.modnm, strValue (p.modnm.map decodedStr)⟩]

/-- A payload has the four fields and no other. -/
theorem Payload.members_key (p : Payload fl) (v : Value) :
    ∀ m ∈ p.members v, m.key ∈ fieldNames := by
  simp [Payload.members, fieldNames]

/-- The text of a payload is the text of its members. -/
theorem Payload.json_eq (p : Payload fl) (v : Value) :
    p.json = renderObject (text " ") ((p.members v).map Member.spelled) := rfl

/-- No status holds a surrogate. -/
theorem Status.value_scalar (s : Status) : s.value.Scalar := by
  cases s <;> decide

/-- The keys of a payload need no escape and hold no angle bracket. -/
theorem fieldNames_plain : ∀ k ∈ fieldNames, IsPlain k ∧
    ∀ c ∈ k, 0x20 ≤ c.val ∧ c.val ≤ 0x7E ∧ c ≠ ch '<' := by
  decide

/-- Every member of a payload is read back. -/
private theorem members_sound (p : Payload fl) {v : Value}
    (hv : ∀ t, Reads (fun n => loadsDialect.accepts n = true) (.value v)
      (dumpsOption fl.repr p.prog ++ t) t) :
    ∀ m ∈ p.members v, m.Sound fun n => loadsDialect.accepts n = true := by
  intro m hmem
  refine ⟨(fieldNames_plain _ (p.members_key v m hmem)).1, ?_⟩
  simp only [Payload.members, List.mem_cons, List.not_mem_nil, or_false] at hmem
  rcases hmem with rfl | rfl | rfl | rfl
  · exact reads_dumpsStr p.status.value_scalar
  · exact hv
  · exact reads_dumpsOption p.msg
  · exact reads_dumpsOption p.modnm

/-- A payload writes a JSON object of its four members. -/
theorem Payload.isText_json (p : Payload fl) : ∃ v, WrittenProg fl p.prog v ∧
    IsText (fun n => loadsDialect.accepts n = true) p.json (.obj (record (.str p.status.value) v
      (p.msg.map decodedStr) (p.modnm.map decodedStr))) := by
  obtain ⟨v, hprog, hv⟩ := p.exists_progValue
  have hgap : ∀ c ∈ text " ", isWs c = true := by decide
  have htext := isText_renderObject hgap (members_sound p hv) (by simp [Payload.members])
  rw [← p.json_eq v] at htext
  exact ⟨v, hprog, htext⟩

/-- The reader gets back the payload that the writer was given. -/
theorem Payload.parse_json (p : Payload fl) (hm : ∀ t ∈ p.msg, t.Scalar)
    (hn : ∀ t ∈ p.modnm, t.Scalar) : parsePayload fl p.json = .ok p := by
  have hdecoded : ∀ {o : Option Text}, (∀ t ∈ o, t.Scalar) → o.map decodedStr = o := by
    intro o ho
    cases o with
    | none => rfl
    | some t => rw [Option.map_some, decodedStr_of_scalar (ho t rfl)]
  obtain ⟨v, hprog, htext⟩ := p.isText_json
  rw [hdecoded hm, hdecoded hn] at htext
  have hloads := htext.scanText
  rw [p.json_eq v] at hloads ⊢
  rw [renderObject, List.cons_append, ← loads_brace] at hloads
  obtain ⟨status, prog, msg, modnm, _⟩ := p
  cases hprog with
  | none => exact parsePayload_record_null fl hloads
  | some hx _ hread => exact parsePayload_record_num fl hloads hread hx

/-! ## Characters -/

/-- Printable ASCII, the angle bracket apart. -/
private def Inert (c : CodePoint) : Prop := 0x20 ≤ c.val ∧ c.val ≤ 0x7E ∧ c ≠ ch '<'

private theorem inert_null : ∀ c ∈ text "null", Inert c := by
  simp [text, Inert]

/-- The written progress holds no mark of a record. -/
private theorem inert_prog (p : Payload fl) : ∀ c ∈ dumpsOption fl.repr p.prog, Inert c := by
  cases hp : p.prog with
  | none => exact inert_null
  | some x =>
    intro c hc
    obtain ⟨n, hwf, _, htext, _⟩ := fl.repr_reads x (p.prog_inUnit x hp)
    rw [dumpsOption, ← htext] at hc
    have hr := isNumeralChar_range (hwf.numeralChars c hc)
    refine ⟨by omega, by omega, ?_⟩
    rintro rfl
    revert hr
    decide

/-- The printable characters. -/
def IsPrintable (c : CodePoint) : Prop := 0x20 ≤ c.val ∧ c.val ≤ 0x7E

/-- A printable character is no surrogate. -/
theorem IsPrintable.isSurrogate {c : CodePoint} (h : IsPrintable c) : c.isSurrogate = false := by
  unfold IsPrintable at h
  simp only [CodePoint.isSurrogate, Bool.and_eq_false_iff, decide_eq_false_iff_not]
  omega

private theorem Inert.printable {c : CodePoint} (h : Inert c) : IsPrintable c := ⟨h.1, h.2.1⟩

/-- The written progress is printable. -/
theorem Payload.prog_printable (p : Payload fl) :
    ∀ c ∈ dumpsOption fl.repr p.prog, IsPrintable c :=
  fun c hc => (inert_prog p c hc).printable

/-- A written text is printable ASCII. -/
private theorem dumpsStr_printable (s : Text) : ∀ c ∈ dumpsStr s, IsPrintable c := by
  intro c hc
  have hq : IsPrintable (ch '"') := ⟨by simp, by simp⟩
  simp only [dumpsStr, List.cons_append, List.mem_cons, List.mem_append, List.not_mem_nil,
    or_false, List.mem_flatMap] at hc
  rcases hc with rfl | ⟨d, _, hd⟩ | rfl
  · exact hq
  · exact dumpsChar_printable hd
  · exact hq

/-- So is one that may be absent. -/
private theorem dumpsOption_printable (o : Option Text) :
    ∀ c ∈ dumpsOption dumpsStr o, IsPrintable c := by
  cases o with
  | none => exact fun c hc => (inert_null c hc).printable
  | some s => exact dumpsStr_printable s

/-- A payload is written in printable ASCII. -/
theorem Payload.json_printable (p : Payload fl) : ∀ c ∈ p.json, IsPrintable c := by
  have hlayout : ∀ d ∈ [ch '"', ch ':', ch ',', ch '{', ch '}'] ++ text " ",
      0x20 ≤ d.val ∧ d.val ≤ 0x7E := by decide
  have hkey : ∀ k ∈ fieldNames, ∀ c ∈ k, IsPrintable c := fun k hk c hc =>
    ⟨((fieldNames_plain k hk).2 c hc).1, ((fieldNames_plain k hk).2 c hc).2.1⟩
  intro c hc
  rcases mem_renderObject hc with hc | hc
  · exact hlayout c hc
  · simp only [List.exists_mem_cons_iff, List.not_mem_nil, false_and, exists_false, or_false] at hc
    rcases hc with (hk | hv) | (hk | hv) | (hk | hv) | (hk | hv)
    · exact hkey _ (by simp [fieldNames]) c hk
    · exact dumpsStr_printable _ c hv
    · exact hkey _ (by simp [fieldNames]) c hk
    · exact p.prog_printable c hv
    · exact hkey _ (by simp [fieldNames]) c hk
    · exact dumpsOption_printable _ c hv
    · exact hkey _ (by simp [fieldNames]) c hk
    · exact dumpsOption_printable _ c hv

/-- So is a wrapped payload. -/
theorem Payload.jsonWrapped_printable (p : Payload fl) : ∀ c ∈ p.jsonWrapped, IsPrintable c := by
  have hsent : ∀ c ∈ sentinelStart ++ sentinelEnd, 0x20 ≤ c.val ∧ c.val ≤ 0x7E := by decide
  intro c hc
  rcases List.mem_append.mp hc with hc | hc
  · rcases List.mem_append.mp hc with hc | hc
    · exact hsent c (List.mem_append_left _ hc)
    · exact p.json_printable c hc
  · exact hsent c (List.mem_append_right _ hc)

/-! ## The closing sentinel -/

/-- A closing sentinel within an optional field. -/
def HoldsEnd (o : Option Text) : Prop := ∃ s ∈ o, sentinelEnd <:+: s

instance (o : Option Text) : Decidable (HoldsEnd o) :=
  match o with
  | none => isFalse fun ⟨_, h, _⟩ => by cases h
  | some s => decidable_of_iff (sentinelEnd <:+: s)
      ⟨fun h => ⟨s, rfl, h⟩, fun ⟨_, hs, h⟩ => by cases hs; exact h⟩

/-- Inert characters hold no sentinel. -/
private theorem not_infix_of_inert {s : Text} (h : ∀ c ∈ s, Inert c) : ¬ sentinelEnd <:+: s :=
  fun hi => (h (ch '<') (hi.subset (by decide))).2.2 rfl

/-- No key holds a closing sentinel. -/
theorem not_infix_key : ∀ k ∈ fieldNames, ¬ sentinelEnd <:+: k :=
  fun k hk => not_infix_of_inert (fieldNames_plain k hk).2

/-- A written text holds the sentinel exactly when the text does. -/
private theorem infix_dumpsOption_iff {o : Option Text} :
    sentinelEnd <:+: dumpsOption dumpsStr o ↔ HoldsEnd o := by
  cases o with
  | none => simp [HoldsEnd, not_infix_of_inert inert_null, dumpsOption]
  | some s => simp [HoldsEnd, dumpsOption, infix_dumpsStr_iff]

/-- No status holds it. -/
private theorem not_infix_status (s : Status) : ¬ sentinelEnd <:+: dumpsStr s.value := by
  rw [infix_dumpsStr_iff]
  cases s <;> decide

private theorem foreign_sentinelEnd : ForeignTo (text " ") sentinelEnd := by decide

/-- Without a closing sentinel in its fields, a payload writes none. -/
theorem Payload.not_infix_json (p : Payload fl) (hm : ¬ HoldsEnd p.msg) (hn : ¬ HoldsEnd p.modnm) :
    ¬ sentinelEnd <:+: p.json := by
  intro hi
  have hmem := infix_renderObject foreign_sentinelEnd hi
  simp only [List.exists_mem_cons_iff, List.not_mem_nil, false_and, exists_false, or_false,
    infix_dumpsOption_iff] at hmem
  rcases hmem with (hk | hv) | (hk | hv) | (hk | hv) | (hk | hv)
  · exact not_infix_key _ (by simp [fieldNames]) hk
  · exact not_infix_status _ hv
  · exact not_infix_key _ (by simp [fieldNames]) hk
  · exact not_infix_of_inert (inert_prog p) hv
  · exact not_infix_key _ (by simp [fieldNames]) hk
  · exact hm hv
  · exact not_infix_key _ (by simp [fieldNames]) hk
  · exact hn hv

/-- An object whose text is cut at a closing sentinel within a string is not JSON. -/
private theorem cut_at_sentinel {ms : List Member}
    (hms : ∀ m ∈ ms, m.Sound fun n => loadsDialect.accepts n = true)
    (hclean : ∀ m ∈ ms, ¬ sentinelEnd <:+: m.key ∧ ¬ sentinelEnd <:+: m.written) {key : Text}
    (hkey : key ∈ fieldNames) {s : Text} (hs : sentinelEnd <:+: s) (tail : List (Text × Text)) :
    ∃ content rest, renderObject (text " ") (ms.map Member.spelled ++ (key, dumpsStr s) :: tail) =
        content ++ sentinelEnd ++ rest ∧
      ¬ sentinelEnd <:+: content ∧ loads content = none := by
  obtain ⟨hesc, hid⟩ := dumpsChar_sentinelEnd
  obtain ⟨content, rest, hrender, hfirst, hscan⟩ := cut_in_string (by decide) foreign_sentinelEnd
    hesc hid (fun a => (spelling_dumps a).scan_truncated) hms hclean (fieldNames_plain key hkey).1
    (not_infix_key key hkey) hs tail
  exact ⟨_, rest, hrender, hfirst, (loads_brace content).trans hscan⟩

/-- With a closing sentinel in a field, what the payload writes before its first closing
sentinel is not JSON. -/
theorem Payload.cut_json (p : Payload fl) (h : HoldsEnd p.msg ∨ HoldsEnd p.modnm) :
    ∃ content rest, p.json = content ++ sentinelEnd ++ rest ∧ ¬ sentinelEnd <:+: content ∧
      loads content = none := by
  obtain ⟨v, _, hv⟩ := p.exists_progValue
  have hsound : ∀ k, ∀ m ∈ (p.members v).take k, m.Sound fun n => loadsDialect.accepts n = true :=
    fun k m hmem => members_sound p hv m (List.mem_of_mem_take hmem)
  have hkeys : ∀ k, ∀ m ∈ (p.members v).take k, ¬ sentinelEnd <:+: m.key :=
    fun k m hmem => not_infix_key _ (p.members_key v m (List.mem_of_mem_take hmem))
  have hstatus := not_infix_status p.status
  have hprog := not_infix_of_inert (inert_prog p)
  by_cases hmsg : HoldsEnd p.msg
  · obtain ⟨s, hs, hend⟩ := hmsg
    have hclean : ∀ m ∈ (p.members v).take 2, ¬ sentinelEnd <:+: m.written := by
      simpa [Payload.members] using And.intro hstatus hprog
    have hjson : p.json = renderObject (text " ") (((p.members v).take 2).map Member.spelled ++
        (text "msg", dumpsStr s) :: [(text "modnm", dumpsOption dumpsStr p.modnm)]) := by
      rw [Payload.json, Option.mem_def.mp hs]
      rfl
    rw [hjson]
    exact cut_at_sentinel (hsound 2) (fun m hm => ⟨hkeys 2 m hm, hclean m hm⟩)
      (by simp [fieldNames]) hend _
  · -- The message is closed, so the cut falls into the module name.
    obtain ⟨s, hs, hend⟩ := h.resolve_left hmsg
    have hclean : ∀ m ∈ (p.members v).take 3, ¬ sentinelEnd <:+: m.written := by
      have hmsg' : ¬ sentinelEnd <:+: dumpsOption dumpsStr p.msg := by
        rwa [infix_dumpsOption_iff]
      simpa [Payload.members] using And.intro hstatus (And.intro hprog hmsg')
    have hjson : p.json = renderObject (text " ") (((p.members v).take 3).map Member.spelled ++
        (text "modnm", dumpsStr s) :: []) := by
      rw [Payload.json, Option.mem_def.mp hs]
      rfl
    rw [hjson]
    exact cut_at_sentinel (hsound 3) (fun m hm => ⟨hkeys 3 m hm, hclean m hm⟩)
      (by simp [fieldNames]) hend _

end Ewts.Python
