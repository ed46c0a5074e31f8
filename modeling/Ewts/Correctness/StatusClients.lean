import Ewts.Correctness.EntryPoints
import Ewts.Correctness.Records
import Ewts.Integration.Ngen.PayloadStatus
import Ewts.Integration.Ngen.Written

/-!
# Status calls of three runtimes

The C and the C++ function hand the same strings to ngen. The Fortran one trims blanks at the
end of its arguments, because a Fortran variable cannot tell them from its filling; it leaves
ngen in another state exactly when an argument really ended in blanks that a record shows.
-/

namespace Ewts

variable {F : Type}

namespace Fortran

/-- A text that trimming shortens, and that C sees whole. -/
def Padded (s : Text) : Prop := (0 : CodePoint) ∉ s ∧ s.getLast? = some (ch ' ')

instance (s : Text) : Decidable (Padded s) := inferInstanceAs (Decidable (_ ∧ _))

/-- What C makes of a trimmed text with a NUL behind it: the string of the text, but for the
blanks of a padded one. -/
theorem cStr_trim (s : Text) :
    (cStr (trim s ++ [0]) = cStr s ∧ ¬ Padded s) ∨
      (Padded s ∧ cStr (trim s ++ [0]) = trim s ∧
        ∃ r, r ≠ [] ∧ (∀ c ∈ r, c = ch ' ') ∧ cStr s = trim s ++ r) := by
  have hsplit : trim s ++ s.rtakeWhile (· = ch ' ') = s := List.rdropWhile_append_rtakeWhile ..
  obtain ⟨r, hr⟩ : ∃ r, r = s.rtakeWhile (· = ch ' ') := ⟨_, rfl⟩
  have hblank : ∀ c ∈ r, c = ch ' ' := by
    intro c hc
    rw [hr] at hc
    simpa using List.mem_rtakeWhile_imp hc
  rw [← hr] at hsplit
  by_cases hnul : (0 : CodePoint) ∈ trim s
  · -- The string ends in what is not trimmed.
    refine Or.inl ⟨?_, fun hpad => hpad.1 ?_⟩
    · obtain ⟨a, b, htrim, ha⟩ := List.eq_append_cons_of_mem hnul
      have hstop : ∀ t : Text, cStr (a ++ 0 :: t) = a := by
        intro t
        have hnone : ∀ c ∈ a, decide (c ≠ 0) = true := by
          rintro c hc
          apply decide_eq_true
          rintro rfl
          exact ha hc
        rw [cStr, List.takeWhile_append_of_pos hnone, List.takeWhile_cons_of_neg (by simp),
          List.append_nil]
      have heq : s = a ++ 0 :: (b ++ r) := by
        rw [← List.cons_append, ← List.append_assoc, ← htrim, hsplit]
      have hkeep : cStr s = a := by rw [heq, hstop]
      rw [hkeep, htrim, List.append_assoc, List.cons_append, hstop]
    · rw [← hsplit]
      exact List.mem_append_left _ hnul
  · have hwhole : ∀ c ∈ trim s, c ≠ 0 := by
      rintro c hc rfl
      exact hnul hc
    have hdrop : cStr (trim s ++ [0]) = trim s := by
      have hnone : ∀ c ∈ trim s, decide (c ≠ 0) = true := fun c hc => decide_eq_true (hwhole c hc)
      rw [cStr, List.takeWhile_append_of_pos hnone, List.takeWhile_cons_of_neg (by simp),
        List.append_nil]
    have hsame : cStr s = s := by
      apply cStr_of_no_nul
      intro c hc
      rw [← hsplit] at hc
      rcases List.mem_append.mp hc with hc | hc
      · exact hwhole c hc
      · rw [hblank c hc]
        decide
    by_cases hnil : r = []
    · rw [hnil, List.append_nil] at hsplit
      refine Or.inl ⟨by rw [hdrop, hsame, hsplit], fun hpad => ?_⟩
      have hself : s.rdropWhile (fun c => decide (c = ch ' ')) = s := hsplit
      obtain ⟨front, rfl⟩ := List.getLast?_eq_some_iff.mp hpad.2
      have hlast := List.rdropWhile_eq_self_iff.mp hself (by simp)
      rw [List.getLast_concat] at hlast
      exact hlast (decide_eq_true rfl)
    · refine Or.inr ⟨⟨?_, ?_⟩, hdrop, r, hnil, hblank, by rw [hsame, hsplit]⟩
      · intro hzero
        rw [← hsame] at hzero
        exact cStr_no_nul hzero rfl
      · rw [← hsplit, List.getLast?_append_of_ne_nil _ hnil, List.getLast?_eq_some_getLast hnil,
          hblank _ (List.getLast_mem hnil)]

end Fortran

namespace Ngen

open Fortran (Padded cStr_trim)

/-! ## Columns and fields -/

/-- Blanks behind a name do not change its column. -/
theorem padEwtsId_append {id r : Text} (hr : ∀ c ∈ r, c = ch ' ') :
    padEwtsId (id ++ r) = padEwtsId id := by
  have hblank : r = List.replicate r.length (ch ' ') := List.eq_replicate_of_mem hr
  have hupper : toUpper (id ++ r) = toUpper id ++ List.replicate r.length (ch ' ') := by
    have hspace : (ch ' ').toUpper = ch ' ' := by decide
    rw [toUpper, List.map_append]
    conv_lhs => rw [hblank]
    rw [List.map_replicate, hspace]
    rfl
  rw [padEwtsId, padEwtsId, hupper, fixedWidth, fixedWidth, List.take_append, List.take_replicate,
    List.append_assoc, List.replicate_append_replicate, List.length_append, List.length_replicate]
  congr 2
  omega

/-- A text with blanks at its end is not written like the text without them. -/
theorem writtenString_append_ne {s r : Text} (hne : r ≠ []) (hr : ∀ c ∈ r, c = ch ' ')
    (x y : Text) : writtenString s ++ x ≠ writtenString (s ++ r) ++ y := by
  have hlast : (s ++ r).getLast? = some (ch ' ') := by
    rw [List.getLast?_append_of_ne_nil _ hne, List.getLast?_eq_some_getLast hne,
      hr _ (List.getLast_mem hne)]
  have hgiven : ¬ (s ++ r = [] ∨ s ++ r = payloadNull) := by
    have hnull : payloadNull.getLast? ≠ some (ch ' ') := by decide
    rintro (hnil | heq)
    · rw [hnil] at hlast
      cases hlast
    · rw [heq] at hlast
      exact hnull hlast
  have hescape : escapeJson (s ++ r) = escapeJson s ++ r := by
    have hcopy : r.flatMap escapeChar = r.flatMap fun c => [c] := by
      apply List.flatMap_congr
      intro c hc
      rw [hr c hc]
      decide
    rw [escapeJson, List.flatMap_append, hcopy, List.flatMap_singleton']
    rfl
  obtain ⟨c, r', rfl⟩ := List.exists_cons_of_ne_nil hne
  have hc : c = ch ' ' := hr c (List.mem_cons_self ..)
  rw [writtenString, writtenString, if_neg hgiven, hescape]
  split
  · -- An unwritten text begins with a letter, a written one with a quotation mark.
    intro heq
    have hhead : ch 'n' = ch '"' := (List.cons.inj heq).1
    exact absurd hhead (by decide)
  · intro heq
    simp only [List.cons_append, List.append_assoc, List.cons.injEq, true_and,
      List.append_cancel_left_eq] at heq
    rw [hc] at heq
    exact absurd heq.1 (by decide)

/-- The same for the texts of a status call, up to the first that is padded. -/
theorem writtenString_trim (s x y : Text) :
    writtenString (cStr (Fortran.trim s ++ [0])) ++ x = writtenString (cStr s) ++ y ↔
      ¬ Padded s ∧ x = y := by
  rcases cStr_trim s with ⟨hsame, hpad⟩ | ⟨hpad, htrim, r, hne, hr, hs⟩
  · rw [hsame, List.append_cancel_left_eq, and_iff_right hpad]
  · rw [htrim, hs]
    exact iff_of_false (writtenString_append_ne hne hr x y) fun h => h.1 hpad

variable (fl : Floats F)

theorem payloadJson_append (a : PayloadFields F) : payloadJson fl a =
    text "\x7b\"status\":" ++ (writtenString a.status ++
      (text ",\"prog\":" ++ writtenDouble fl a.prog ++ text ",\"msg\":" ++
        (writtenString a.msg ++ (text ",\"modnm\":" ++
          (writtenString a.modnm ++ text "\x7d"))))) := by
  simp [payloadJson, JsonStream.addString, JsonStream.addDouble, JsonStream.add, text]

variable {fl} {status msg modnm id : Text} {prog : F}

/-- Trimming changes the object of a record exactly when a text is padded. -/
theorem payloadJson_trim : payloadJson fl (statusFields ⟨some (Fortran.trim id ++ [0]),
      some (Fortran.trim status ++ [0]), prog, some (Fortran.trim msg ++ [0]),
      some (Fortran.trim modnm ++ [0])⟩) =
    payloadJson fl (statusFields ⟨some id, some status, prog, some msg, some modnm⟩) ↔
      ∀ s ∈ [status, msg, modnm], ¬ Padded s := by
  rw [payloadJson_append, payloadJson_append]
  simp only [statusFields, Option.getD_some, List.append_cancel_left_eq, writtenString_trim,
    List.forall_mem_cons, List.not_mem_nil, false_implies, implies_true, and_true]

/-- It changes the id column exactly when nothing is left of the id. -/
theorem padEwtsId_trim {p : Process} (hid : p.logger.ewtsId = text "NGEN") :
    padEwtsId (p.recordId (Fortran.trim id ++ [0])) = padEwtsId (p.recordId id) ↔
      id = [] ∨ Fortran.trim id ≠ [] := by
  rcases cStr_trim id with ⟨hsame, hpad⟩ | ⟨hpad, htrim, r, hne, hr, hs⟩
  · refine iff_of_true (by rw [Process.recordId, Process.recordId, hsame]) ?_
    by_contra hnot
    rw [not_or, not_not, Fortran.trim, List.rdropWhile_eq_nil_iff] at hnot
    obtain ⟨hne, hblank⟩ := hnot
    have hall : ∀ c ∈ id, c = ch ' ' := fun c hc => of_decide_eq_true (hblank c hc)
    apply hpad
    refine ⟨fun hzero => absurd (hall 0 hzero) (by decide), ?_⟩
    rw [List.getLast?_eq_some_getLast hne, hall _ (List.getLast_mem hne)]
  · have hid' : id ≠ [] := by
      rintro rfl
      cases hpad.2
    have hgiven : Fortran.trim id ++ r ≠ [] := by simp [hne]
    have hrecord : p.recordId id = Fortran.trim id ++ r := by
      rw [Process.recordId, hs, if_neg hgiven]
    rw [hrecord, padEwtsId_append hr, Process.recordId, htrim, hid]
    by_cases hnil : Fortran.trim id = []
    · rw [if_pos hnil, hnil]
      exact iff_of_false (by decide) (by simp [hid'])
    · rw [if_neg hnil]
      exact iff_of_true rfl (Or.inr hnil)

/-! ## Calls -/

/-- What is written through a stream can be told from where it stands afterwards. -/
theorem Process.writePayload_inj {p : Process} {s : OutStream} {t t' : Text}
    (h : p.writePayload s t = p.writePayload s t') : t = t' := by
  have hstream : (p.disk.write s t).2 = (p.disk.write s t').2 :=
    Option.some.inj (congrArg (fun q => q.logger.payloadFile) h)
  have hlen : s.pos + t.length = s.pos + t'.length := congrArg OutStream.pos hstream
  have hfile := congrFun (congrArg (fun q => q.disk.files) h) s.path
  simp only [writePayload, Disk.write, Function.update_self, Option.some.injEq, writeAt,
    List.append_assoc, List.append_cancel_left_eq] at hfile
  exact (List.append_inj hfile (by omega)).1

/-- Two payload calls lead to one state exactly when nothing is written or the records are the
same. -/
theorem Process.logPayload_eq_iff (p : Process) (os : Os) (order : HashOrder) (clock : Clock)
    (id id' : Text) (a a' : PayloadFields F) :
    p.logPayload fl os order clock id a = p.logPayload fl os order clock id' a' ↔
      (p.openPayloadFileIfNeeded os order clock).logger.payloadFile = none ∨
        padEwtsId ((p.openPayloadFileIfNeeded os order clock).recordId id) =
            padEwtsId ((p.openPayloadFileIfNeeded os order clock).recordId id') ∧
          payloadJson fl a = payloadJson fl a' := by
  obtain ⟨q, hq⟩ : ∃ q, q = p.openPayloadFileIfNeeded os order clock := ⟨_, rfl⟩
  simp only [Process.logPayload, ← hq]
  cases hs : q.logger.payloadFile with
  | none => simp
  | some s =>
    simp only [reduceCtorEq, false_or]
    constructor
    · intro h
      have hrecord := Process.writePayload_inj h
      simp only [payloadRecord, List.append_assoc, List.append_cancel_left_eq, List.cons_append,
        List.cons.injEq, true_and] at hrecord
      obtain ⟨hid, hrest⟩ := List.append_inj hrecord (by simp only [length_padEwtsId])
      simp only [List.cons.injEq, true_and, List.append_cancel_left_eq, List.nil_append]
        at hrest
      exact ⟨hid, List.append_cancel_right hrest⟩
    · rintro ⟨hid, hjson⟩
      rw [payloadRecord, payloadRecord, hid, hjson]

variable (fl) in
/-- In every state after initialisation the C++ function does what the C function does, and the
Fortran function does so too, unless it reaches an open payload log with a padded text or with an
id of blanks only. -/
theorem status_clients_agree {p : Process} (h : p.Settled) (os : Os) (order : HashOrder)
    (clock : Clock) (env : Environ) (linked : Bool) :
    (∀ a : StatusCall F, p.receive fl os order clock (Cpp.payloadStatus env linked a) =
      p.receive fl os order clock (C.ewtsPayloadStatus env linked a)) ∧
    ∀ (id status msg modnm : Text) (prog : F),
      p.receive fl os order clock
          (Fortran.payloadStatus linked env id status prog msg modnm) =
        p.receive fl os order clock (C.ewtsPayloadStatus env linked
          ⟨some id, some status, prog, some msg, some modnm⟩) ↔
      (C.isNgenActive env && linked) = false ∨
        (p.openPayloadFileIfNeeded os order clock).logger.payloadFile = none ∨
        (id = [] ∨ Fortran.trim id ≠ []) ∧ ∀ s ∈ [status, msg, modnm], ¬ Padded s := by
  have hactive : (linked && Fortran.isNgenActive env) = (C.isNgenActive env && linked) :=
    Bool.and_comm ..
  have hid : (p.openPayloadFileIfNeeded os order clock).logger.ewtsId = text "NGEN" := by
    unfold Process.openPayloadFileIfNeeded
    simp only [h.initIfNeeded]
    split
    · exact h.ewtsId
    · split <;> exact h.ewtsId
  constructor
  · intro a
    rw [Cpp.payloadStatus, C.ewtsPayloadStatus]
    change p.receive fl os order clock (if C.isNgenActive env && linked then _ else _) = _
    split <;> rfl
  · intro id status msg modnm prog
    rw [Fortran.payloadStatus, C.ewtsPayloadStatus, hactive]
    cases C.isNgenActive env && linked with
    | false => exact iff_of_true rfl (Or.inl rfl)
    | true =>
      change p.logPayload .. = p.logPayload .. ↔ _
      rw [Process.logPayload_eq_iff]
      simp only [Option.getD_some, padEwtsId_trim hid, payloadJson_trim, Bool.true_eq_false,
        false_or]

/-- The process of the example, with a log directory. -/
private def statusProcess : Process :=
  afterInit (levelsOs []) insertionOrder default logDirEnv fun _ => none

/-- A blank behind the id is not seen, one behind the message is. -/
theorem status_clients_agree_padded :
    let fortran := fun msg => statusProcess.receive SampleFloat.floats (levelsOs []) insertionOrder
      default (Fortran.payloadStatus true runEnv (text "PET  ") (text "ERROR") .half msg [])
    let c := fun msg => statusProcess.receive SampleFloat.floats (levelsOs []) insertionOrder
      default (C.ewtsPayloadStatus runEnv true
        ⟨some (text "PET  "), some (text "ERROR"), .half, some msg, some []⟩)
    fortran (text "dry") = c (text "dry") ∧ fortran (text "dry ") ≠ c (text "dry ") := by
  intro fortran c
  have hagree := (status_clients_agree SampleFloat.floats
    (settled_afterInit (levelsOs []) insertionOrder default logDirEnv fun _ => none) (levelsOs [])
    insertionOrder default runEnv true).2 (text "PET  ") (text "ERROR")
  constructor
  · exact (hagree (text "dry") [] .half).mpr (Or.inr (Or.inr ⟨Or.inr (by decide), by decide⟩))
  · intro heq
    have hopen : (statusProcess.openPayloadFileIfNeeded (levelsOs []) insertionOrder
        default).logger.payloadFile.isSome = true := by rfl
    rcases (hagree (text "dry ") [] .half).mp heq with hoff | hnone | hshown
    · exact absurd hoff (by decide)
    · rw [statusProcess, hnone] at hopen
      cases hopen
    · exact hshown.2 (text "dry ") (by simp) (by decide)

end Ngen

end Ewts
