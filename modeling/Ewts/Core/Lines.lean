import Ewts.Core.Text
import Mathlib.Data.List.Forall2

/-!
# Physical lines

Every newline of a text ends a line, and what stands behind the last one is a line as well
unless it is empty. A text that ends in a newline can be continued line by line.
-/

namespace Ewts

/-- The lines of a text, without their newlines. -/
def physicalLines (s : Text) : List Text :=
  let pieces := s.splitOn (ch '\n')
  if pieces.getLast? = some [] then pieces.dropLast else pieces

/-- A newline stands at the end. -/
def Terminated (s : Text) : Prop := ∃ body, s = body ++ [ch '\n']

variable {s t front : Text}

/-- The pieces of a text hold no separator. -/
theorem not_mem_of_mem_splitOn {sep : CodePoint} {piece s : Text} (h : piece ∈ s.splitOn sep) :
    sep ∉ piece := by
  induction s generalizing piece with
  | nil =>
    rw [List.splitOn_nil, List.mem_singleton] at h
    rw [h]
    exact List.not_mem_nil
  | cons c s ih =>
    rw [List.splitOn_cons_eq_if_modifyHead] at h
    split at h
    · rcases List.mem_cons.mp h with rfl | h
      · exact List.not_mem_nil
      · exact ih h
    · rename_i hc
      obtain ⟨first, rest, hsplit⟩ := List.exists_cons_of_ne_nil (List.splitOn_ne_nil sep s)
      rw [hsplit, List.modifyHead_cons] at h
      rcases List.mem_cons.mp h with rfl | h
      · have hfirst : sep ∉ first := ih (by rw [hsplit]; exact List.mem_cons_self ..)
        rintro (_ | ⟨_, hmem⟩)
        · exact hc (beq_self_eq_true _)
        · exact hfirst hmem
      · exact ih (by rw [hsplit]; exact List.mem_cons_of_mem _ h)

/-- The text is cut where its last line ends. -/
theorem physicalLines_newline (s : Text) :
    physicalLines (s ++ [ch '\n']) = s.splitOn (ch '\n') := by
  have hsplit : (s ++ [ch '\n']).splitOn (ch '\n') = s.splitOn (ch '\n') ++ [[]] :=
    List.splitOn_append_cons_self s []
  rw [physicalLines, hsplit, List.getLast?_concat, List.dropLast_concat]
  exact if_pos rfl

/-- The lines of a text hold no newline. -/
theorem newline_not_mem {line : Text} (h : line ∈ physicalLines s) : ch '\n' ∉ line := by
  apply not_mem_of_mem_splitOn (s := s)
  unfold physicalLines at h
  simp only at h
  split at h
  · exact List.mem_of_mem_dropLast h
  · exact h

/-- What follows a newline does not change the lines before it. -/
theorem physicalLines_append (h : Terminated s) (t : Text) :
    physicalLines (s ++ t) = physicalLines s ++ physicalLines t := by
  obtain ⟨body, rfl⟩ := h
  have hne : t.splitOn (ch '\n') ≠ [] := List.splitOn_ne_nil _ t
  have hsplit : (body ++ [ch '\n'] ++ t).splitOn (ch '\n') =
      body.splitOn (ch '\n') ++ t.splitOn (ch '\n') := by
    rw [List.append_assoc]
    exact List.splitOn_append_cons_self body t
  rw [physicalLines_newline, physicalLines, physicalLines, hsplit,
    List.getLast?_append_of_ne_nil _ hne, List.dropLast_append_of_ne_nil hne]
  split <;> rfl

/-- A text without newlines is one line, unless it is empty. -/
theorem physicalLines_of_not_mem (h : ch '\n' ∉ s) :
    physicalLines s = if s = [] then [] else [s] := by
  rw [physicalLines, List.splitOn_eq_singleton h]
  by_cases hs : s = []
  · rw [if_pos hs, hs]
    rfl
  · rw [if_neg hs, List.getLast?_singleton, if_neg fun heq => hs (Option.some.inj heq)]

/-- A newline ends the first line. -/
theorem physicalLines_cons (h : ch '\n' ∉ s) (t : Text) :
    physicalLines (s ++ ch '\n' :: t) = s :: physicalLines t := by
  have happend := physicalLines_append ⟨s, rfl⟩ t
  rwa [physicalLines_newline, List.splitOn_eq_singleton h, List.append_assoc] at happend

/-- Only an empty piece is no line. -/
theorem filter_physicalLines {P : Text → Bool} (hP : P [] = false) (s : Text) :
    (physicalLines s).filter P = (s.splitOn (ch '\n')).filter P := by
  unfold physicalLines
  simp only
  split
  · rename_i hlast
    obtain ⟨front, hfront⟩ := List.getLast?_eq_some_iff.mp hlast
    rw [hfront, List.dropLast_concat, List.filter_append,
      List.filter_cons_of_neg (by rw [hP]; exact Bool.false_ne_true)]
    exact (List.append_nil _).symm
  · rfl

/-- Lines that are written one by one are read back. -/
theorem physicalLines_flatten {lines : List Text} (h : ∀ line ∈ lines, ch '\n' ∉ line) :
    physicalLines (lines.map (· ++ [ch '\n'])).flatten = lines := by
  induction lines with
  | nil => rfl
  | cons line lines ih =>
    rw [List.map_cons, List.flatten_cons, physicalLines_append ⟨line, rfl⟩,
      physicalLines_newline, List.splitOn_eq_singleton (h line (List.mem_cons_self ..)),
      ih fun l hl => h l (List.mem_cons_of_mem _ hl)]
    rfl

/-- A text without newlines is a prefix of the first line. -/
theorem isPrefix_newline (h : ch '\n' ∉ front) :
    front <+: s ++ ch '\n' :: t ↔ front <+: s := by
  refine ⟨fun hpre => ?_, fun hpre => hpre.trans (List.prefix_append _ _)⟩
  obtain ⟨r, hr⟩ := hpre
  rcases List.append_eq_append_iff.mp hr with ⟨m, hm, _⟩ | ⟨m, hm, hnewline⟩
  · exact ⟨m, hm.symm⟩
  · cases m with
    | nil => rw [hm, List.append_nil]
    | cons d m =>
      rw [List.cons_append, List.cons.injEq] at hnewline
      rw [hm, ← hnewline.1] at h
      exact absurd (List.mem_append_right _ (List.mem_cons_self ..)) h

/-- A newline does not stand in front of the text that follows. -/
theorem newline_behind {first before rest : Text} (h : ch '\n' ∉ first)
    (heq : first ++ t = before ++ ch '\n' :: rest) : ∃ m, t = m ++ ch '\n' :: rest := by
  rcases List.append_eq_append_iff.mp heq with ⟨m, _, ht⟩ | ⟨m, hm, ht⟩
  · exact ⟨m, ht⟩
  · cases m with
    | nil => exact ⟨[], ht.symm⟩
    | cons d m =>
      rw [hm, ← (List.cons.inj ht).1] at h
      exact absurd (List.mem_append_right _ (List.mem_cons_self ..)) h

/-- Every line begins with a text exactly when it stands at the front and behind every
newline. -/
theorem forall_isPrefix_splitOn_iff (h : ch '\n' ∉ front) (s : Text) :
    (∀ line ∈ s.splitOn (ch '\n'), front <+: line) ↔
      front <+: s ∧ ∀ before rest, s = before ++ ch '\n' :: rest → front <+: rest := by
  induction hn : s.length using Nat.strong_induction_on generalizing s with
  | _ n ih =>
    by_cases hs : ch '\n' ∈ s
    · -- The first line ends at the first newline.
      obtain ⟨first, rest, rfl, hfirst⟩ := List.eq_append_cons_of_mem hs
      have hcut : front <+: first ↔ front <+: first ++ ch '\n' :: rest :=
        (isPrefix_newline h).symm
      have hrest := ih rest.length (by rw [← hn, List.length_append, List.length_cons]; omega)
        rest rfl
      rw [List.splitOn_append_cons_self_of_not_mem hfirst, List.forall_mem_cons, hrest, hcut]
      refine and_congr_right fun _ => ⟨?_, ?_⟩
      · rintro ⟨hhead, hlater⟩ before tail heq
        obtain ⟨m, hm⟩ := newline_behind hfirst heq
        cases m with
        | nil =>
          rw [← (List.cons.inj hm).2]
          exact hhead
        | cons d m => exact hlater m tail (List.cons.inj hm).2
      · intro hall
        refine ⟨hall first rest rfl, fun before tail heq => ?_⟩
        apply hall (first ++ ch '\n' :: before) tail
        rw [heq, List.append_assoc, List.cons_append]
    · rw [List.splitOn_eq_singleton hs, List.forall_mem_singleton]
      refine (and_iff_left ?_).symm
      rintro before rest rfl
      exact absurd (List.mem_append_right _ (List.mem_cons_self ..)) hs

/-! ## Records -/

/-- There is one piece more than there are newlines. -/
theorem length_splitOn_newline (s : Text) :
    (s.splitOn (ch '\n')).length = s.count (ch '\n') + 1 := by
  induction s with
  | nil => rfl
  | cons c s ih =>
    rw [List.splitOn_cons_eq_if_modifyHead, List.count_cons]
    split
    · rw [List.length_cons, ih]
    · rw [List.length_modifyHead, ih, Nat.add_zero]

/-- There are as many lines as newlines. -/
theorem length_physicalLines (h : Terminated s) :
    (physicalLines s).length = s.count (ch '\n') := by
  obtain ⟨body, rfl⟩ := h
  rw [physicalLines_newline, length_splitOn_newline, List.count_append]
  rfl

universe u

variable {β : Type u} {content : β → Text} {R : Text → β → Prop}

/-- The record that each line of a file belongs to: a record has the lines that its newlines
end. -/
def lineOwners (content : β → Text) (records : List β) : List β :=
  records.flatMap fun record => List.replicate ((content record).count (ch '\n')) record

/-- Lines of one record stand before the lines of the others. -/
theorem forall₂_replicate_append_iff {record : β} {lines rest : List Text} {owners : List β} :
    List.Forall₂ R (lines ++ rest) (List.replicate lines.length record ++ owners) ↔
      (∀ line ∈ lines, R line record) ∧ List.Forall₂ R rest owners := by
  induction lines with
  | nil => simp
  | cons line lines ih =>
    rw [List.cons_append, List.length_cons, List.replicate_succ, List.cons_append,
      List.forall₂_cons, ih, List.forall_mem_cons, and_assoc]

/-- What the lines of a file have to do with their records is a matter of each record. -/
theorem forall₂_lineOwners_iff {records : List β}
    (h : ∀ record ∈ records, Terminated (content record)) :
    List.Forall₂ R (physicalLines (records.flatMap content)) (lineOwners content records) ↔
      ∀ record ∈ records, ∀ line ∈ physicalLines (content record), R line record := by
  induction records with
  | nil => exact iff_of_true .nil (List.forall_mem_nil _)
  | cons record records ih =>
    have hrecord := h record (List.mem_cons_self ..)
    rw [List.flatMap_cons, physicalLines_append hrecord, lineOwners, List.flatMap_cons,
      ← length_physicalLines hrecord, forall₂_replicate_append_iff, List.forall_mem_cons]
    exact and_congr_right fun _ => ih fun r hr => h r (List.mem_cons_of_mem _ hr)

end Ewts
