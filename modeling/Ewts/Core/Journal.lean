import Ewts.Core.Lines

/-!
# Journals

A journal is a file of records, one on each line. A run that appends records may end in the
middle of one; what is left is then a number of whole records and a front of the next. A reader
that makes nothing of a front reads the whole records and nothing else.
-/

namespace Ewts

universe u

variable {α : Type u}

/-- The records of a journal, each with its newline. -/
def journalText (records : List Text) : Text := (records.map (· ++ [ch '\n'])).flatten

@[simp] theorem journalText_nil : journalText [] = [] := rfl

theorem journalText_cons (record : Text) (records : List Text) :
    journalText (record :: records) = record ++ ch '\n' :: journalText records := by
  rw [journalText, List.map_cons, List.flatten_cons, List.append_assoc, List.singleton_append]
  rfl

/-- Records are stored one after the other. -/
theorem journalText_append (records more : List Text) :
    journalText (records ++ more) = journalText records ++ journalText more := by
  rw [journalText, List.map_append, List.flatten_append]
  rfl

/-- What stands behind whole records is read for itself. -/
theorem physicalLines_journalText_append {records : List Text}
    (h : ∀ record ∈ records, ch '\n' ∉ record) (t : Text) :
    physicalLines (journalText records ++ t) = records ++ physicalLines t := by
  induction records with
  | nil => rfl
  | cons record records ih =>
    rw [journalText_cons, List.append_assoc, List.cons_append,
      physicalLines_cons (h record (List.mem_cons_self ..)),
      ih fun r hr => h r (List.mem_cons_of_mem _ hr), List.cons_append]

/-- A front of a journal ends behind a record, or in one. -/
theorem prefix_journalText {records : List Text} {t : Text} (h : t <+: journalText records) :
    ∃ whole rest torn, records = whole ++ rest ∧ t = journalText whole ++ torn ∧
      (torn = [] ∨ ∃ record, rest.head? = some record ∧ torn <+: record) := by
  induction records generalizing t with
  | nil => exact ⟨[], [], [], rfl, List.prefix_nil.mp h, Or.inl rfl⟩
  | cons record records ih =>
    rw [journalText_cons] at h
    obtain ⟨r, hr⟩ := h
    rcases List.append_eq_append_iff.mp hr with ⟨m, hm, _⟩ | ⟨m, hm, hrest⟩
    · exact ⟨[], record :: records, t, rfl, rfl, Or.inr ⟨record, rfl, m, hm.symm⟩⟩
    · cases m with
      | nil => exact ⟨[], record :: records, t, rfl, rfl, Or.inr ⟨record, rfl, [], by
          rw [hm, List.append_nil, List.append_nil]⟩⟩
      | cons d m =>
        rw [List.cons_append, List.cons.injEq] at hrest
        obtain ⟨hd, hrest⟩ := hrest
        obtain ⟨whole, rest, torn, hrecords, hm', htorn⟩ := ih ⟨r, hrest.symm⟩
        refine ⟨record :: whole, rest, torn, by rw [hrecords, List.cons_append], ?_, htorn⟩
        rw [hm, ← hd, hm', journalText_cons, List.append_assoc, List.cons_append]

/-- What a reader makes of the lines of a text. -/
def readLines (read : Text → Option α) (t : Text) : List α := (physicalLines t).filterMap read

/-- A reader meets whole records before what follows them. -/
theorem readLines_journalText_append (read : Text → Option α) {records : List Text}
    (h : ∀ record ∈ records, ch '\n' ∉ record) (t : Text) :
    readLines read (journalText records ++ t) = records.filterMap read ++ readLines read t := by
  rw [readLines, physicalLines_journalText_append h, List.filterMap_append]
  rfl

/-- A reader that makes nothing of a torn record reads, from a front of a journal, exactly the
records whose characters are there; the newline of the last one may be missing. -/
theorem readLines_of_prefix (read : Text → Option α) {records : List Text} {t : Text}
    (hne : ∀ record ∈ records, record ≠ []) (hline : ∀ record ∈ records, ch '\n' ∉ record)
    (htear : ∀ record ∈ records, ∀ torn, torn <+: record → torn ≠ record → read torn = none)
    (h : t <+: journalText records) :
    ∃ whole rest, records = whole ++ rest ∧ readLines read t = whole.filterMap read ∧
      journalText whole <+: t ++ [ch '\n'] ∧
      ∀ record ∈ rest.head?, ¬ journalText whole ++ record <+: t := by
  obtain ⟨whole, rest, torn, rfl, rfl, htorn⟩ := prefix_journalText h
  have hlines : ∀ record ∈ whole, ch '\n' ∉ record :=
    fun record hmem => hline record (List.mem_append_left _ hmem)
  have hread := readLines_journalText_append read hlines torn
  rcases htorn with rfl | ⟨record, hhead, hpre⟩
  · rw [List.append_nil] at hread ⊢
    refine ⟨whole, rest, rfl, ?_, List.prefix_append _ _, fun record hrecord hpre => ?_⟩
    · rw [hread]
      exact List.append_nil _
    · have hlen := hpre.length_le
      rw [List.length_append] at hlen
      have hpos := List.length_pos_iff.mpr
        (hne record (List.mem_append_right _ (List.mem_of_head? hrecord)))
      omega
  · obtain ⟨rest, rfl⟩ : ∃ tail, rest = record :: tail := by
      cases rest with
      | nil => cases hhead
      | cons first tail => exact ⟨tail, by rw [Option.some.inj hhead]⟩
    have hmem : record ∈ whole ++ record :: rest :=
      List.mem_append_right _ (List.mem_cons_self ..)
    have hnone : ch '\n' ∉ torn := fun hc => hline record hmem (hpre.subset hc)
    by_cases hall : torn = record
    · -- Only the newline of the record is missing.
      subst hall
      refine ⟨whole ++ [torn], rest, by simp, ?_, ?_, fun next _ hnext => ?_⟩
      · rw [hread, List.filterMap_append, readLines, physicalLines_of_not_mem hnone,
          if_neg (hne torn hmem)]
      · rw [journalText_append, List.append_assoc, journalText_cons]
        exact List.prefix_refl _
      · have hlen := hnext.length_le
        rw [journalText_append] at hlen
        simp only [journalText_cons, List.length_append, List.length_cons] at hlen
        omega
    · refine ⟨whole, record :: rest, rfl, ?_, ?_, fun next hnext hfull => ?_⟩
      · rw [hread, readLines, physicalLines_of_not_mem hnone]
        split
        · rw [List.filterMap_nil, List.append_nil]
        · rw [List.filterMap_cons_none (htear record hmem torn hpre hall), List.filterMap_nil,
            List.append_nil]
      · rw [List.append_assoc]
        exact List.prefix_append _ _
      · cases Option.some.inj hnext
        have hlong := (List.prefix_append_right_inj _).mp hfull
        exact hall (hpre.eq_of_length_le hlong.length_le)

end Ewts
