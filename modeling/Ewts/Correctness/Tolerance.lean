import Ewts.Runtime.Python.LogLine

/-!
# Strict and tolerant parsing

On a line with a UTC timestamp both modes of `parts_of_log_line` do the same. On any other
line the strict mode raises its documented exception and the tolerant mode goes on with
`None`. What is left to fail is the payload, whose exception neither mode catches.
-/

namespace Ewts.Python

open Json

variable {F : Type} (fl : Floats F) (fromisoformat : Text → Option DateTime) (line : Text)

/-- `parts_of_log_line` with any function for `datetime.fromisoformat`. -/
def partsOfLogLineWith (tolerant : Bool) : Except LineError (LogParts fl) :=
  match splitWhitespace 3 line with
  | [timestampStr, module, level, msg] =>
    match fromisoformat timestampStr with
    | none =>
      if tolerant then withPayload fl line tolerant none none none none
      else .error (.timestamp line)
    | some dt =>
      if dt.tzinfo = some 0 then
        withPayload fl line tolerant (some dt) (some module) (some level) (some msg)
      else if tolerant then
        withPayload fl line tolerant none (some module) (some level) (some msg)
      else .error (.timestamp line)
  | _ =>
    if tolerant then withPayload fl line tolerant none none none none
    else .error (.fewParts line)

theorem partsOfLogLineWith_reader (reader : IsoReader) (tolerant : Bool) :
    partsOfLogLineWith fl reader.fromisoformat line tolerant =
      partsOfLogLine fl reader line tolerant := rfl

/-- A line of four parts, the first of which is read as a time in UTC. -/
def Stamped : Prop :=
  ∃ timestampStr module level msg dt, splitWhitespace 3 line = [timestampStr, module, level, msg] ∧
    fromisoformat timestampStr = some dt ∧ dt.tzinfo = some 0

/-- What the tolerant mode finds in a line, around its payload. -/
def foundParts (payload : Option (Payload fl)) : LogParts fl :=
  match splitWhitespace 3 line with
  | [timestampStr, module, level, msg] =>
    match fromisoformat timestampStr with
    | none => ⟨none, none, none, none, payload⟩
    | some dt =>
      ⟨if dt.tzinfo = some 0 then some dt else none, some module, some level, some msg, payload⟩
  | _ => ⟨none, none, none, none, payload⟩

/-- `LogPartsFactoryParserError`. -/
def LineError.isParserError : LineError → Bool
  | .fewParts _ | .timestamp _ => true
  | .payload _ | .parts _ => false

theorem foundParts_payload (payload : Option (Payload fl)) :
    (foundParts fl fromisoformat line payload).payload = payload := by
  unfold foundParts
  split
  · split <;> rfl
  · rfl

/-- The time is found exactly on stamped lines. -/
theorem foundParts_dt_iff (payload : Option (Payload fl)) :
    (foundParts fl fromisoformat line payload).dt ≠ none ↔ Stamped fromisoformat line := by
  unfold foundParts
  split
  · rename_i timestampStr module level msg hsplit
    split
    · rename_i hread
      refine iff_of_false (not_not.mpr rfl) ?_
      rintro ⟨_, _, _, _, dt, hsplit', hread', _⟩
      rw [hsplit] at hsplit'
      cases hsplit'
      rw [hread] at hread'
      cases hread'
    · rename_i dt hread
      by_cases htz : dt.tzinfo = some 0
      · simp only [htz, ite_true]
        exact iff_of_true (by simp) ⟨_, _, _, _, dt, hsplit, hread, htz⟩
      · simp only [htz, ite_false]
        refine iff_of_false (not_not.mpr rfl) ?_
        rintro ⟨_, _, _, _, dt', hsplit', hread', htz'⟩
        rw [hsplit] at hsplit'
        cases hsplit'
        rw [hread] at hread'
        cases hread'
        exact htz htz'
  · rename_i hparts
    refine iff_of_false (not_not.mpr rfl) ?_
    rintro ⟨timestampStr, module, level, msg, _, hsplit, _⟩
    exact hparts timestampStr module level msg hsplit

/-- The tolerant mode fails with the payload only. -/
theorem tolerant_eq : partsOfLogLineWith fl fromisoformat line true =
    match payloadOfLogMsg fl line with
    | .error e => .error (.payload e)
    | .ok payload => .ok (foundParts fl fromisoformat line payload) := by
  have hmake : ∀ dt module level msg, withPayload fl line true dt module level msg =
      match payloadOfLogMsg fl line with
      | .error e => .error (.payload e)
      | .ok payload => .ok ⟨dt, module, level, msg, payload⟩ := by
    intro dt module level msg
    have hok : ∀ payload, LogParts.make true (⟨dt, module, level, msg, payload⟩ : LogParts fl) =
        .ok ⟨dt, module, level, msg, payload⟩ := by
      intro payload
      cases dt <;> cases module <;> cases level <;> cases msg <;> rfl
    rw [withPayload]
    cases payloadOfLogMsg fl line with
    | error e => rfl
    | ok payload => simp only [hok]
  unfold partsOfLogLineWith foundParts
  split
  · split
    · rw [if_pos rfl]
      exact hmake ..
    · split
      · exact hmake ..
      · rw [if_pos rfl]
        exact hmake ..
  · rw [if_pos rfl]
    exact hmake ..

/-- On a stamped line the modes agree. -/
theorem strict_of_stamped (h : Stamped fromisoformat line) :
    partsOfLogLineWith fl fromisoformat line false =
      partsOfLogLineWith fl fromisoformat line true := by
  obtain ⟨timestampStr, module, level, msg, dt, hsplit, hread, htz⟩ := h
  simp only [partsOfLogLineWith, hsplit, hread, htz, ite_true]
  rfl

/-- On any other line the strict mode raises its own exception. -/
theorem strict_of_not_stamped (h : ¬ Stamped fromisoformat line) :
    ∃ e, partsOfLogLineWith fl fromisoformat line false = .error e ∧ e.isParserError = true := by
  unfold partsOfLogLineWith
  split
  · rename_i timestampStr module level msg hsplit
    split
    · exact ⟨_, rfl, rfl⟩
    · rename_i dt hread
      rw [if_neg fun htz => h ⟨_, _, _, _, dt, hsplit, hread, htz⟩]
      exact ⟨_, rfl, rfl⟩
  · exact ⟨_, rfl, rfl⟩

/-- Tolerant parsing is a conservative extension of strict parsing. -/
theorem tolerant_extends_strict :
    (∀ r, partsOfLogLineWith fl fromisoformat line false = .ok r →
      partsOfLogLineWith fl fromisoformat line true = .ok r) ∧
    ((∃ e, partsOfLogLineWith fl fromisoformat line true = .error e) ↔
      ∃ e, payloadOfLogMsg fl line = .error e) ∧
    ∀ r, partsOfLogLineWith fl fromisoformat line true = .ok r →
      payloadOfLogMsg fl line = .ok r.payload ∧
        ((∃ r', partsOfLogLineWith fl fromisoformat line false = .ok r') ↔ r.dt ≠ none) := by
  refine ⟨?_, ?_, ?_⟩
  · intro r hr
    by_cases h : Stamped fromisoformat line
    · rwa [strict_of_stamped fl fromisoformat line h] at hr
    · obtain ⟨e, he, _⟩ := strict_of_not_stamped fl fromisoformat line h
      rw [he] at hr
      cases hr
  · rw [tolerant_eq]
    cases payloadOfLogMsg fl line with
    | error e => exact iff_of_true ⟨_, rfl⟩ ⟨e, rfl⟩
    | ok payload => exact iff_of_false (by simp) (by simp)
  · intro r hr
    have hread := tolerant_eq fl fromisoformat line
    rw [hr] at hread
    cases hpayload : payloadOfLogMsg fl line with
    | error e =>
      rw [hpayload] at hread
      cases hread
    | ok payload =>
      rw [hpayload] at hread
      obtain rfl : r = foundParts fl fromisoformat line payload := Except.ok.inj hread
      refine ⟨by rw [foundParts_payload], ?_⟩
      rw [foundParts_dt_iff]
      constructor
      · rintro ⟨r', hr'⟩
        by_contra h
        obtain ⟨e, he, _⟩ := strict_of_not_stamped fl fromisoformat line h
        rw [he] at hr'
        cases hr'
      · intro h
        exact ⟨_, (strict_of_stamped fl fromisoformat line h).trans hr⟩

/-! ## Payload texts -/

/-- A status member that is accepted. -/
def StatusValue (v : Option Value) : Prop := ∃ s : Status, v = some (.str s.value)

/-- A progress member that is accepted: a number of the unit interval, a truth value that
converts to one, `null`, or none. -/
inductive ProgValue : Option Value → Prop where
  | absent : ProgValue none
  | null : ProgValue (some .null)
  | bool (b : Bool) (h : fl.inUnit (if b then fl.one else fl.zero) = true) :
      ProgValue (some (.bool b))
  | num (n : Numeral) (x : F) (hn : fl.ofNumeral n = some x) (h : fl.inUnit x = true) :
      ProgValue (some (.num n))
  | constant (name : Text) (h : fl.inUnit (fl.ofConstant name) = true) :
      ProgValue (some (.constant name))

/-- A text member that is accepted: a string, `null`, or none. -/
inductive TextValue : Option Value → Prop where
  | absent : TextValue none
  | null : TextValue (some .null)
  | str (t : Text) : TextValue (some (.str t))

/-- The text of a JSON object with a registered status, where the other members are optional
and there are no further ones. The last member of a name counts. -/
def PayloadText (raw : Text) : Prop :=
  ∃ ms, loads raw = some (.obj ms) ∧ StatusValue (getItem ms (text "status")) ∧
    ProgValue fl (getItem ms (text "prog")) ∧ TextValue (getItem ms (text "msg")) ∧
      TextValue (getItem ms (text "modnm")) ∧ ∀ m ∈ ms, m.1 ∈ fieldNames

theorem statusOf_ok_iff (v : Value) : (∃ s, statusOf v = .ok s) ↔ StatusValue (some v) := by
  constructor
  · rintro ⟨s, hs⟩
    unfold statusOf at hs
    split at hs
    · split at hs
      · rename_i hs'
        cases hs
        exact ⟨s, by rw [Status.value_of_ofText hs']⟩
      · cases hs
    · cases hs
  · rintro ⟨s, hs⟩
    cases hs
    exact ⟨s, by simp only [statusOf, Status.ofText_value]⟩

theorem checkProg_float_iff (x : F) :
    (∃ p, checkProg fl (.float x) = .ok p) ↔ fl.inUnit x = true := by
  rw [checkProg]
  split
  · rename_i h
    exact iff_of_true ⟨_, rfl⟩ h
  · rename_i h
    exact iff_of_false (by simp) h

/-- The progress passes its conversion and its check. -/
theorem prog_ok_iff (v : Value) :
    (∃ o p, progOf fl v = .ok o ∧ checkProg fl o = .ok p) ↔ ProgValue fl (some v) := by
  cases v with
  | null => exact iff_of_true ⟨_, _, rfl, rfl⟩ .null
  | bool b =>
    constructor
    · rintro ⟨o, p, ho, hp⟩
      cases ho
      exact .bool b ((checkProg_float_iff fl _).mp ⟨p, hp⟩)
    · rintro (_ | _ | ⟨_, h⟩)
      obtain ⟨p, hp⟩ := (checkProg_float_iff fl _).mpr h
      exact ⟨_, p, rfl, hp⟩
  | num n =>
    constructor
    · rintro ⟨o, p, ho, hp⟩
      rw [progOf] at ho
      split at ho
      · rename_i x hx
        cases ho
        exact .num n x hx ((checkProg_float_iff fl x).mp ⟨p, hp⟩)
      · cases ho
    · rintro (_ | _ | _ | ⟨_, x, hx, h⟩)
      obtain ⟨p, hp⟩ := (checkProg_float_iff fl x).mpr h
      exact ⟨.float x, p, by simp only [progOf, hx], hp⟩
  | constant name =>
    constructor
    · rintro ⟨o, p, ho, hp⟩
      cases ho
      exact .constant name ((checkProg_float_iff fl _).mp ⟨p, hp⟩)
    · rintro (_ | _ | _ | _ | ⟨_, h⟩)
      obtain ⟨p, hp⟩ := (checkProg_float_iff fl _).mpr h
      exact ⟨_, p, rfl, hp⟩
  | str t => exact iff_of_false (by simp [progOf]) (by rintro ⟨⟩)
  | arr l => exact iff_of_false (by simp [progOf]) (by rintro ⟨⟩)
  | obj ms => exact iff_of_false (by simp [progOf]) (by rintro ⟨⟩)

theorem checkStr_ok_iff (field : Text) (ms : List (Text × Value)) (key : Text) :
    (∃ t, checkStr field (fieldOf fl ms key) = .ok t) ↔ TextValue (getItem ms key) := by
  unfold fieldOf
  cases getItem ms key with
  | none => exact iff_of_true ⟨_, rfl⟩ .absent
  | some v =>
    cases v with
    | null => exact iff_of_true ⟨_, rfl⟩ .null
    | str t => exact iff_of_true ⟨_, rfl⟩ (.str t)
    | num n =>
      refine iff_of_false ?_ (by rintro ⟨⟩)
      simp only [objectOf]
      split
      · split <;> simp [checkStr, PyObject.asStr]
      · simp [checkStr, PyObject.asStr]
    | bool b => exact iff_of_false (by simp [checkStr, objectOf, PyObject.asStr]) (by rintro ⟨⟩)
    | constant name =>
      exact iff_of_false (by simp [checkStr, objectOf, PyObject.asStr]) (by rintro ⟨⟩)
    | arr l => exact iff_of_false (by simp [checkStr, objectOf, PyObject.asStr]) (by rintro ⟨⟩)
    | obj l => exact iff_of_false (by simp [checkStr, objectOf, PyObject.asStr]) (by rintro ⟨⟩)

/-- The constructor accepts what all four checks accept. -/
theorem make_ok_iff (status prog msg modnm : PyObject F) :
    (∃ p, Payload.make fl status prog msg modnm = .ok p) ↔
      (∃ s, checkStatus status = .ok s) ∧ (∃ p, checkProg fl prog = .ok p) ∧
        (∃ m, checkStr (text "msg") msg = .ok m) ∧ ∃ n, checkStr (text "modnm") modnm = .ok n := by
  unfold Payload.make
  cases checkStatus status <;> cases checkProg fl prog <;> cases checkStr (text "msg") msg <;>
    cases checkStr (text "modnm") modnm <;> simp

/-- The steps of the `try` block behind `json.loads`. -/
private theorem object_ok_iff (status : Except ParseError Status)
    (prog : Except ParseError (PyObject F)) (msg modnm : PyObject F) (known : Bool) :
    (∃ p, (do
        let s ← status
        let o ← prog
        if known then
          match Payload.make fl (.status s) o msg modnm with
          | .ok p => .ok p
          | .error errs => .error (.fields errs)
        else .error .unexpectedKey : Except ParseError (Payload fl)) = .ok p) ↔
      (∃ s, status = .ok s) ∧ (∃ o p, prog = .ok o ∧ checkProg fl o = .ok p) ∧
        (∃ m, checkStr (text "msg") msg = .ok m) ∧ (∃ n, checkStr (text "modnm") modnm = .ok n) ∧
          known = true := by
  cases status with
  | error e => exact iff_of_false (by simp [bind, Except.bind]) (by simp)
  | ok s =>
    cases prog with
    | error e => exact iff_of_false (by simp [bind, Except.bind]) (by simp)
    | ok o =>
      cases known with
      | false => exact iff_of_false (by simp [bind, Except.bind]) (by simp)
      | true =>
        have hmake := make_ok_iff fl (.status s) o msg modnm
        have hstatus : ∃ s', checkStatus (.status s : PyObject F) = .ok s' := ⟨s, rfl⟩
        simp only [hstatus, true_and] at hmake
        simp only [bind, Except.bind, ite_true, Except.ok.injEq, exists_eq', true_and, and_true]
        rw [show (∃ o' p, o = o' ∧ checkProg fl o' = .ok p) ↔ ∃ p, checkProg fl o = .ok p by simp,
          ← hmake]
        cases Payload.make fl (.status s) o msg modnm <;> simp

/-- The text between the sentinels is accepted when it is a payload text. -/
theorem parsePayload_ok_iff (raw : Text) :
    (∃ p, parsePayload fl raw = .ok p) ↔ PayloadText fl raw := by
  rw [parsePayload, PayloadText]
  cases loads raw with
  | none => exact iff_of_false (by simp) (by simp)
  | some v =>
    cases v with
    | obj ms =>
      simp only [Option.some.injEq, Value.obj.injEq, exists_eq_left']
      have hmsg := checkStr_ok_iff fl (text "msg") ms (text "msg")
      have hmodnm := checkStr_ok_iff fl (text "modnm") ms (text "modnm")
      have hkeys : (ms.all fun m => fieldNames.contains m.1) = true ↔
          ∀ m ∈ ms, m.1 ∈ fieldNames := by simp [List.all_eq_true]
      cases getItem ms (text "status") with
      | none => exact iff_of_false (by simp [bind, Except.bind]) (by simp [StatusValue])
      | some v =>
        have hstatus := statusOf_ok_iff v
        cases getItem ms (text "prog") with
        | none =>
          have hprog : (∃ o p, (.ok .none : Except ParseError (PyObject F)) = .ok o ∧
              checkProg fl o = .ok p) ↔ ProgValue fl none :=
            iff_of_true ⟨.none, _, rfl, rfl⟩ .absent
          rw [← hstatus, ← hprog, ← hmsg, ← hmodnm, ← hkeys]
          exact object_ok_iff fl (statusOf v) (.ok .none) _ _ _
        | some w =>
          rw [← hstatus, ← prog_ok_iff, ← hmsg, ← hmodnm, ← hkeys]
          exact object_ok_iff fl (statusOf v) (progOf fl w) _ _ _
    | null => exact iff_of_false (by simp) (by simp)
    | bool b => exact iff_of_false (by simp) (by simp)
    | num n => exact iff_of_false (by simp) (by simp)
    | constant name => exact iff_of_false (by simp) (by simp)
    | str t => exact iff_of_false (by simp) (by simp)
    | arr l => exact iff_of_false (by simp) (by simp)

/-- The payload of a message is read when there is none, or one that is a payload text. -/
theorem payloadOfLogMsg_error_iff (logMsg : Text) :
    (∃ e, payloadOfLogMsg fl logMsg = .error e) ↔
      ¬(findall logMsg = [] ∨ ∃ raw, findall logMsg = [raw] ∧ PayloadText fl raw) := by
  rw [payloadOfLogMsg]
  cases findall logMsg with
  | nil => exact iff_of_false (by simp) (by simp)
  | cons raw more =>
    cases more with
    | nil =>
      simp only [List.cons_ne_nil, false_or, List.cons.injEq, and_true, exists_eq_left',
        ← parsePayload_ok_iff]
      cases parsePayload fl raw <;> simp
    | cons raw' more => exact iff_of_true ⟨_, rfl⟩ (by simp)

/-- Strict parsing keeps to its one documented exception exactly when it does not come as far
as the payload, or finds none, or finds one that is a payload text. -/
theorem strict_failure_documented_iff :
    (∀ e, partsOfLogLineWith fl fromisoformat line false = .error e → e.isParserError = true) ↔
      ¬ Stamped fromisoformat line ∨ findall line = [] ∨
        ∃ raw, findall line = [raw] ∧ PayloadText fl raw := by
  by_cases h : Stamped fromisoformat line
  · rw [strict_of_stamped fl fromisoformat line h, tolerant_eq, or_iff_right (not_not.mpr h)]
    have hread := payloadOfLogMsg_error_iff fl line
    cases hpayload : payloadOfLogMsg fl line with
    | error e =>
      refine iff_of_false ?_ (hread.mp ⟨e, hpayload⟩)
      intro hall
      exact absurd (hall _ rfl) Bool.false_ne_true
    | ok payload =>
      refine iff_of_true (by simp) ?_
      by_contra hnot
      obtain ⟨e, he⟩ := hread.mpr hnot
      rw [hpayload] at he
      cases he
  · obtain ⟨e, he, hparser⟩ := strict_of_not_stamped fl fromisoformat line h
    refine iff_of_true ?_ (Or.inl h)
    intro e' he'
    rw [he] at he'
    cases he'
    exact hparser

/-- A stamped line whose payload is no JSON text. -/
private def brokenLine : Text :=
  text "2026-01-01T00:00:00.000Z PET STATUS <MSG_DATA>x</MSG_DATA>"

/-- Its strict parsing raises the exception of the payload. -/
theorem strict_failure_escapes :
    ¬ ∀ line e, partsOfLogLine SampleFloat.floats .columns line false = .error e →
      e.isParserError = true := by
  have hsplit : splitWhitespace 3 brokenLine = [text "2026-01-01T00:00:00.000Z", text "PET",
      text "STATUS", text "<MSG_DATA>x</MSG_DATA>"] := by decide
  have hfind : findall brokenLine = [text "x"] := by decide
  have hrefused : loads (text "x") = none := rfl
  have hpayload : payloadOfLogMsg SampleFloat.floats brokenLine =
      .error (.invalid brokenLine (text "x") .decode) := by
    rw [payloadOfLogMsg, hfind]
    simp only [parsePayload_of_refused _ hrefused]
  have hstamped : Stamped IsoReader.columns.fromisoformat brokenLine :=
    ⟨_, _, _, _, ⟨2026, 1, 1, 0, 0, 0, 0, some 0⟩, hsplit, by rfl, rfl⟩
  intro h
  have hraise := strict_of_stamped SampleFloat.floats _ brokenLine hstamped
  rw [tolerant_eq, hpayload, partsOfLogLineWith_reader] at hraise
  exact absurd (h _ _ hraise) Bool.false_ne_true

end Ewts.Python
