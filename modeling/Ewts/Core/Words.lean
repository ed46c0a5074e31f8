import Mathlib.Data.List.Basic
import Ewts.Core.Trim

/-!
# Words

Replacing every run of separators by one of them, and trimming, leaves the words of a list
with one separator between them. So two lists look alike then exactly when they have the
same words.
-/

namespace Ewts

universe u

variable {α : Type u}

/-- Replace each run of a class; `inRun` tells that the run has been replaced already. -/
def subRunsFrom (p : α → Bool) (sep : α) (inRun : Bool) : List α → List α
  | [] => []
  | c :: s =>
    if p c then if inRun then subRunsFrom p sep true s else sep :: subRunsFrom p sep true s
    else c :: subRunsFrom p sep false s

/-- Replace each run of a class by one separator. -/
def subRuns (p : α → Bool) (sep : α) (s : List α) : List α := subRunsFrom p sep false s

/-- The words of a list, where `w` is the part of the first one in front of it. -/
def wordsFrom (p : α → Bool) : List α → List α → List (List α)
  | w, [] => if w.isEmpty then [] else [w]
  | w, c :: s =>
    if p c then if w.isEmpty then wordsFrom p [] s else w :: wordsFrom p [] s
    else wordsFrom p (w ++ [c]) s

/-- The runs of a list outside a class. -/
def wordsOf (p : α → Bool) (s : List α) : List (List α) := wordsFrom p [] s

variable {p q : α → Bool} {sep : α}

/-- Words are not empty and have no member of the class. -/
theorem mem_wordsFrom {w s l : List α} (hw : ∀ c ∈ w, p c = false) (hl : l ∈ wordsFrom p w s) :
    l ≠ [] ∧ ∀ c ∈ l, p c = false := by
  induction s generalizing w with
  | nil =>
    cases w with
    | nil => cases hl
    | cons d w =>
      rw [List.mem_singleton.mp hl]
      exact ⟨List.cons_ne_nil d w, hw⟩
  | cons c s ih =>
    have hnil : ∀ d ∈ ([] : List α), p d = false := fun d hd => absurd hd List.not_mem_nil
    unfold wordsFrom at hl
    by_cases hc : p c = true
    · rw [if_pos hc] at hl
      cases w with
      | nil => exact ih hnil hl
      | cons d w =>
        rcases List.mem_cons.mp hl with rfl | hl
        · exact ⟨List.cons_ne_nil d w, hw⟩
        · exact ih hnil hl
    · rw [if_neg hc] at hl
      apply ih _ hl
      intro d hd
      rcases List.mem_append.mp hd with hd | hd
      · exact hw d hd
      · rw [List.mem_singleton.mp hd]
        exact Bool.eq_false_iff.mpr hc

/-- A word is not empty and holds no separator. -/
theorem mem_wordsOf {s l : List α} (hl : l ∈ wordsOf p s) : l ≠ [] ∧ ∀ c ∈ l, p c = false :=
  mem_wordsFrom (fun _ hc => absurd hc List.not_mem_nil) hl

/-- A word that has begun is a word. -/
theorem wordsFrom_ne_nil {w s : List α} (hw : w ≠ []) : wordsFrom p w s ≠ [] := by
  have hempty : w.isEmpty = false := by simpa using hw
  induction s generalizing w with
  | nil => simp [wordsFrom, hempty]
  | cons c s ih =>
    simp only [wordsFrom, hempty, Bool.false_eq_true, if_false]
    split
    · exact List.cons_ne_nil _ _
    · exact ih (by simp) (by simp)

/-- Behind a word, or in a run, replacing runs joins the words; one separator may follow. -/
theorem subRunsFrom_eq (s : List α) :
    (∀ w ≠ [], ∃ k, w ++ subRunsFrom p sep false s =
        [sep].intercalate (wordsFrom p w s) ++ List.replicate k sep) ∧
      ∃ k, subRunsFrom p sep true s = [sep].intercalate (wordsFrom p [] s) ++
        List.replicate k sep ∧ (wordsFrom p [] s = [] → k = 0) := by
  induction s with
  | nil =>
    constructor
    · intro w hw
      refine ⟨0, ?_⟩
      cases w with
      | nil => exact absurd rfl hw
      | cons c w => simp [subRunsFrom, wordsFrom]
    · exact ⟨0, rfl, fun _ => rfl⟩
  | cons c s ih =>
    obtain ⟨hword, k, hrun, hk⟩ := ih
    by_cases hc : p c = true
    · constructor
      · intro w hw
        have hempty : w.isEmpty = false := by simpa using hw
        simp only [subRunsFrom, wordsFrom, hc, hempty, if_true, Bool.false_eq_true, if_false, hrun]
        by_cases hnil : wordsFrom p [] s = []
        · refine ⟨1, ?_⟩
          rw [hk hnil, hnil]
          simp
        · refine ⟨k, ?_⟩
          rw [List.intercalate_cons_of_ne_nil hnil]
          simp
      · refine ⟨k, ?_⟩
        simp only [subRunsFrom, wordsFrom, hc, if_true, List.isEmpty_nil]
        exact ⟨hrun, hk⟩
    · simp only [subRunsFrom, wordsFrom, if_neg hc, List.nil_append]
      have hgrow : ∀ w : List α, ∃ k, w ++ c :: subRunsFrom p sep false s =
          [sep].intercalate (wordsFrom p (w ++ [c]) s) ++ List.replicate k sep := by
        intro w
        obtain ⟨k, hk⟩ := hword (w ++ [c]) (by simp)
        exact ⟨k, by rw [← hk]; simp⟩
      constructor
      · exact fun w _ => hgrow w
      · obtain ⟨k, hk⟩ := hgrow []
        exact ⟨k, hk, fun hnil => absurd hnil (wordsFrom_ne_nil (by simp))⟩

/-- A separator is in no word. -/
theorem ne_sep_of_mem (hsep : p sep = true) {s l : List α} (hl : l ∈ wordsOf p s) {c : α}
    (hc : c ∈ l) : c ≠ sep := by
  rintro rfl
  have hword := (mem_wordsOf hl).2 c hc
  rw [hsep] at hword
  cases hword

/-- Joined words begin and end with the characters of words. -/
theorem intercalate_ends {ls : List (List α)} (h : ∀ l ∈ ls, l ≠ [] ∧ ∀ c ∈ l, p c = false)
    (hne : ls ≠ []) : [sep].intercalate ls ≠ [] ∧
      (∀ c ∈ ([sep].intercalate ls).head?, p c = false) ∧
        ∀ c ∈ ([sep].intercalate ls).getLast?, p c = false := by
  induction ls with
  | nil => exact absurd rfl hne
  | cons l ls ih =>
    obtain ⟨hl, hmem⟩ := h l (List.mem_cons_self ..)
    have htail : ∀ l ∈ ls, l ≠ [] ∧ ∀ c ∈ l, p c = false :=
      fun m hm => h m (List.mem_cons_of_mem l hm)
    by_cases hnil : ls = []
    · subst hnil
      rw [List.intercalate_singleton]
      exact ⟨hl, fun c hc => hmem c (List.mem_of_head? hc),
        fun c hc => hmem c (List.mem_of_getLast? hc)⟩
    · obtain ⟨hne', _, hlast⟩ := ih htail hnil
      rw [List.intercalate_cons_of_ne_nil hnil]
      refine ⟨by simp [hl], fun c hc => ?_, fun c hc => ?_⟩
      · rw [List.append_assoc, List.head?_append_of_ne_nil _ hl] at hc
        exact hmem c (List.mem_of_head? hc)
      · rw [List.getLast?_append_of_ne_nil _ hne'] at hc
        exact hlast c hc

section Separator

variable [DecidableEq α] (hsep : p sep = true)
include hsep

/-- What is left of replaced runs after trimming are the joined words. -/
theorem trimWith_subRuns (s : List α) :
    trimWith (· = sep) (subRuns p sep s) = [sep].intercalate (wordsOf p s) := by
  have hwords : ∀ l ∈ wordsOf p s, l ≠ [] ∧ ∀ c ∈ l, decide (c = sep) = false :=
    fun l hl => ⟨(mem_wordsOf hl).1, fun c hc => decide_eq_false (ne_sep_of_mem hsep hl hc)⟩
  -- Only separators stand around the joined words.
  have hform : ∃ j k, subRuns p sep s = List.replicate j sep ++
      ([sep].intercalate (wordsOf p s) ++ List.replicate k sep) := by
    obtain ⟨k, hrun, _⟩ : ∃ k, subRunsFrom p sep true s = [sep].intercalate (wordsFrom p [] s) ++
        List.replicate k sep ∧ _ := (subRunsFrom_eq s).2
    have hlead : ∃ j, subRuns p sep s = List.replicate j sep ++ subRunsFrom p sep true s := by
      cases s with
      | nil => exact ⟨0, rfl⟩
      | cons c s =>
        by_cases hc : p c = true
        · exact ⟨1, by simp [subRuns, subRunsFrom, hc]⟩
        · exact ⟨0, by simp [subRuns, subRunsFrom, hc]⟩
    obtain ⟨j, hj⟩ := hlead
    exact ⟨j, k, by rw [hj, hrun, wordsOf]⟩
  obtain ⟨j, k, hform⟩ := hform
  have hblank : ∀ n, ∀ c ∈ List.replicate n sep, decide (c = sep) = true :=
    fun n c hc => decide_eq_true (List.eq_of_mem_replicate hc)
  rw [hform]
  by_cases hnil : wordsOf p s = []
  · rw [hnil, List.intercalate_nil, List.nil_append, ← List.replicate_add, trimWith,
      List.dropWhile_eq_nil_iff.mpr (hblank _)]
    rfl
  · obtain ⟨hne, hhead, hlast⟩ := intercalate_ends hwords hnil
    exact trimWith_around (hblank j) (hblank k) hne hhead hlast

/-- Replacing runs of the separator does nothing any more. -/
theorem subRuns_subRuns (s : List α) :
    subRuns (· = sep) sep (subRuns p sep s) = subRuns p sep s := by
  have hfrom : ∀ b, subRunsFrom (· = sep) sep b (subRunsFrom p sep b s) =
      subRunsFrom p sep b s := by
    induction s with
    | nil => exact fun _ => rfl
    | cons c s ih =>
      intro b
      by_cases hc : p c = true
      · cases b with
        | true => simpa only [subRunsFrom, hc, if_true] using ih true
        | false => simp [subRunsFrom, hc, ih true]
      · have hne : c ≠ sep := fun h => hc (h ▸ hsep)
        simp [subRunsFrom, hc, hne, ih false]
  exact hfrom false

end Separator

/-! ## Joined words -/

/-- A run outside the class belongs to the word under way. -/
theorem wordsFrom_append {l : List α} (hl : ∀ c ∈ l, p c = false) (w s : List α) :
    wordsFrom p w (l ++ s) = wordsFrom p (w ++ l) s := by
  induction l generalizing w with
  | nil => rw [List.nil_append, List.append_nil]
  | cons c l ih =>
    have hc : ¬ p c = true := by rw [hl c (List.mem_cons_self ..)]; exact Bool.false_ne_true
    rw [List.cons_append, wordsFrom, if_neg hc, ih fun d hd => hl d (List.mem_cons_of_mem c hd),
      List.append_assoc, List.singleton_append]

/-- The words of joined words. -/
theorem wordsOf_intercalate (hsep : p sep = true) {ls : List (List α)}
    (h : ∀ l ∈ ls, l ≠ [] ∧ ∀ c ∈ l, p c = false) : wordsOf p ([sep].intercalate ls) = ls := by
  induction ls with
  | nil => rfl
  | cons l ls ih =>
    obtain ⟨hl, hmem⟩ := h l (List.mem_cons_self ..)
    have hempty : ¬ l.isEmpty = true := by simpa using hl
    have ih := ih fun m hm => h m (List.mem_cons_of_mem l hm)
    by_cases hnil : ls = []
    · subst hnil
      rw [List.intercalate_singleton, wordsOf, ← List.append_nil l, wordsFrom_append hmem,
        List.nil_append, List.append_nil, wordsFrom, if_neg hempty]
    · rw [List.intercalate_cons_of_ne_nil hnil, wordsOf, List.append_assoc,
        wordsFrom_append hmem, List.nil_append, List.singleton_append, wordsFrom, if_pos hsep,
        if_neg hempty]
      exact congrArg (l :: ·) ih

/-- Joined words begin as the first word does. -/
theorem head?_intercalate {w : List α} (hw : w ≠ []) (ws : List (List α)) :
    ([sep].intercalate (w :: ws)).head? = w.head? := by
  cases ws with
  | nil => rw [List.intercalate_singleton]
  | cons v vs =>
    rw [List.intercalate_cons_cons, List.append_assoc, List.head?_append_of_ne_nil _ hw]

/-- Joined words hold separators and what is in the words. -/
theorem mem_intercalate {c : α} {ls : List (List α)} (h : c ∈ [sep].intercalate ls) :
    c = sep ∨ ∃ l ∈ ls, c ∈ l := by
  induction ls with
  | nil => cases h
  | cons l ls ih =>
    by_cases hnil : ls = []
    · subst hnil
      rw [List.intercalate_singleton] at h
      exact Or.inr ⟨l, List.mem_cons_self .., h⟩
    · rw [List.intercalate_cons_of_ne_nil hnil] at h
      rcases List.mem_append.mp h with hl | htail
      · rcases List.mem_append.mp hl with hl | hsep
        · exact Or.inr ⟨l, List.mem_cons_self .., hl⟩
        · exact Or.inl (List.mem_singleton.mp hsep)
      · rcases ih htail with hsep | ⟨m, hm, hc⟩
        · exact Or.inl hsep
        · exact Or.inr ⟨m, List.mem_cons_of_mem l hm, hc⟩

/-- A separator behind a word meets no second one. -/
private theorem not_pair_append {l rest : List α} (hl : sep ∉ l)
    (hhead : ∀ c ∈ rest.head?, c ≠ sep) (hrest : ¬ [sep, sep] <:+: rest) :
    ¬ [sep, sep] <:+: l ++ sep :: rest := by
  induction l with
  | nil =>
    intro h
    rcases List.infix_cons_iff.mp h with hpre | hin
    · have hone : [sep] <+: rest := (List.cons_prefix_cons.mp hpre).2
      obtain ⟨t, rfl⟩ := hone
      exact hhead sep rfl rfl
    · exact hrest hin
  | cons c l ih =>
    intro h
    rcases List.infix_cons_iff.mp h with hpre | hin
    · exact hl ((List.cons_prefix_cons.mp hpre).1 ▸ List.mem_cons_self ..)
    · exact ih (fun hm => hl (List.mem_cons_of_mem c hm)) hin

/-- Joined words have no two separators in a row. -/
theorem not_pair_intercalate {ls : List (List α)} (h : ∀ l ∈ ls, l ≠ [] ∧ sep ∉ l) :
    ¬ [sep, sep] <:+: [sep].intercalate ls := by
  induction ls with
  | nil =>
    intro hin
    exact absurd (List.infix_nil.mp hin) (List.cons_ne_nil _ _)
  | cons l ls ih =>
    obtain ⟨_, hsep⟩ := h l (List.mem_cons_self ..)
    cases ls with
    | nil =>
      rw [List.intercalate_singleton]
      exact fun hin => hsep (hin.subset (List.mem_cons_self ..))
    | cons m ls =>
      rw [List.intercalate_cons_cons, List.append_assoc, List.singleton_append]
      have ih := ih fun k hk => h k (List.mem_cons_of_mem l hk)
      refine not_pair_append hsep (fun c hc => ?_) ih
      obtain ⟨hm, hsepm⟩ := h m (List.mem_cons_of_mem l (List.mem_cons_self ..))
      rw [head?_intercalate hm] at hc
      rintro rfl
      exact hsepm (List.mem_of_head? hc)

/-- Joined words are told apart by their words. -/
theorem intercalate_inj [DecidableEq α] {ls ms : List (List α)} (hls : ls ≠ []) (hms : ms ≠ [])
    (hl : ∀ l ∈ ls, sep ∉ l) (hm : ∀ m ∈ ms, sep ∉ m)
    (h : [sep].intercalate ls = [sep].intercalate ms) : ls = ms := by
  have hsplit := congrArg (List.splitOn sep) h
  rwa [List.splitOn_intercalate sep hl hls, List.splitOn_intercalate sep hm hms] at hsplit

end Ewts
