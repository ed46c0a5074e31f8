import Ewts.Core.Runs
import Ewts.Core.Text
import Mathlib.Data.List.DropRight
import Mathlib.Logic.Function.Basic

/-!
# Appending to files

A file system as far as appending goes: a file can be opened when it exists or when its
directory does. A record is a block of lines for one file. A line that is no UTF-8 text ends
its block early, and a file that cannot be opened loses it.
-/

namespace Ewts

/-- The directories, and the contents of files. -/
structure FileSystem where
  dirs : Text → Bool
  files : Text → Option Text

/-- The directory of a path, `.` without a slash. -/
def parentDir (path : Text) : Text :=
  let head := path.rdropWhile (· ≠ ch '/')
  if head = [] then text "." else if head.dropLast = [] then text "/" else head.dropLast

namespace FileSystem

/-- Whether `open(path, "a")` succeeds. Nothing is refused for the length of its name or for
permissions. -/
def opens (fs : FileSystem) (path : Text) : Bool :=
  !fs.dirs path && ((fs.files path).isSome || fs.dirs (parentDir path))

/-- What a file holds; a missing file holds nothing. -/
def content (fs : FileSystem) (path : Text) : Text := (fs.files path).getD []

/-- Append to an open file. -/
def append (fs : FileSystem) (path t : Text) : FileSystem :=
  { fs with files := Function.update fs.files path (some (fs.content path ++ t)) }

/-- The lines that are written of a block: those before the first that is no UTF-8 text. -/
def encoded (lines : List Text) : Text := (lines.takeWhile fun line => line.Scalar).flatten

/-- Open a file, and write a block of lines to it. -/
def writeLines (fs : FileSystem) (path : Text) (lines : List Text) : FileSystem :=
  if fs.opens path then fs.append path (encoded lines) else fs

variable {fs : FileSystem} {path other : Text}

/-- What is appended stands at the end of its file. -/
@[simp] theorem content_append (t : Text) :
    (fs.append path t).content path = fs.content path ++ t := by
  simp [append, content]

/-- Other files keep their content. -/
theorem content_append_other (h : other ≠ path) (t : Text) :
    (fs.append path t).content other = fs.content other := by
  simp [append, content, Function.update_of_ne h]

/-- An open file can still be opened, and so can every other. -/
theorem opens_append (h : fs.opens path = true) (t : Text) :
    (fs.append path t).opens = fs.opens := by
  funext other
  by_cases heq : other = path
  · subst heq
    simp only [opens, Bool.and_eq_true, Bool.not_eq_true'] at h
    simp [opens, append, h.1, h.2]
  · simp [opens, append, Function.update_of_ne heq]

/-- Writing lines leaves what can be opened. -/
theorem opens_writeLines (lines : List Text) : (fs.writeLines path lines).opens = fs.opens := by
  unfold writeLines
  split
  · rename_i h
    exact opens_append h _
  · rfl

/-! ## Blocks -/

/-- Parts that are prefixes of others are not longer together. -/
theorem length_flatMap_le {α β : Type} {f g : α → List β} {l : List α}
    (h : ∀ a ∈ l, f a <+: g a) : (l.flatMap f).length ≤ (l.flatMap g).length := by
  induction l with
  | nil => exact Nat.le_refl 0
  | cons a l ih =>
    rw [List.flatMap_cons, List.flatMap_cons, List.length_append, List.length_append]
    exact Nat.add_le_add (h a (List.mem_cons_self ..)).length_le
      (ih fun b hb => h b (List.mem_cons_of_mem a hb))

/-- Prefixes of blocks that add up to the same text are the blocks. -/
theorem flatMap_eq_iff_of_prefix {α β : Type} {f g : α → List β} {l : List α}
    (h : ∀ a ∈ l, f a <+: g a) : l.flatMap f = l.flatMap g ↔ ∀ a ∈ l, f a = g a := by
  refine ⟨?_, List.flatMap_congr⟩
  induction l with
  | nil => simp
  | cons a l ih =>
    have hrest : ∀ b ∈ l, f b <+: g b := fun b hb => h b (List.mem_cons_of_mem a hb)
    have hle := length_flatMap_le hrest
    intro heq
    rw [List.flatMap_cons, List.flatMap_cons] at heq
    obtain ⟨r, hr⟩ := h a (List.mem_cons_self ..)
    rw [← hr, List.append_assoc, List.append_cancel_left_eq] at heq
    have hnil : r = [] := by
      have hlen := congrArg List.length heq
      rw [List.length_append] at hlen
      exact List.eq_nil_of_length_eq_zero (by omega)
    subst hnil
    rw [List.append_nil] at hr
    exact List.forall_mem_cons.mpr ⟨hr, ih hrest heq⟩

/-- A block of nonempty lines is written whole exactly when all of it is UTF-8 text. -/
theorem encoded_eq_iff {lines : List Text} (h : ∀ line ∈ lines, line ≠ []) :
    encoded lines = lines.flatten ↔ ∀ line ∈ lines, line.Scalar := by
  have hsplit : lines.flatten =
      encoded lines ++ (lines.dropWhile fun line => line.Scalar).flatten := by
    rw [encoded, ← List.flatten_append, List.takeWhile_append_dropWhile]
  rw [hsplit, List.self_eq_append_right, List.flatten_eq_nil_iff]
  constructor
  · intro hnil
    have hdrop : lines.dropWhile (fun line => line.Scalar) = [] := by
      by_contra hne
      obtain ⟨line, hline⟩ := List.exists_mem_of_ne_nil _ hne
      exact h line ((List.dropWhile_sublist _).subset hline) (hnil line hline)
    simpa using List.dropWhile_eq_nil_iff.mp hdrop
  · intro hall line hline
    have hdrop : lines.dropWhile (fun line => line.Scalar) = [] :=
      List.dropWhile_eq_nil_iff.mpr fun l hl => decide_eq_true (hall l hl)
    rw [hdrop] at hline
    cases hline

/-- What can be encoded of some lines is a beginning of them. -/
theorem encoded_prefix (lines : List Text) : encoded lines <+: lines.flatten := by
  refine ⟨(lines.dropWhile fun line => line.Scalar).flatten, ?_⟩
  rw [encoded, ← List.flatten_append, List.takeWhile_append_dropWhile]

/-! ## Runs -/

section Records

variable {ρ : Type} (file : ρ → Text) (lines : ρ → List Text)

/-- Write a record. -/
def emit (fs : FileSystem) (r : ρ) : FileSystem := fs.writeLines (file r) (lines r)

/-- What is written of a record. -/
def written (fs : FileSystem) (r : ρ) : Text :=
  if fs.opens (file r) then encoded (lines r) else []

/-- A record is added to its own file and to no other. -/
theorem content_emit (fs : FileSystem) (r : ρ) (path : Text) :
    (emit file lines fs r).content path =
      fs.content path ++ if file r = path then written file lines fs r else [] := by
  unfold emit writeLines written
  by_cases hfile : file r = path
  · subst hfile
    rw [if_pos rfl]
    split
    · exact content_append _
    · exact (List.append_nil _).symm
  · rw [if_neg hfile, List.append_nil]
    split
    · exact content_append_other (Ne.symm hfile) _
    · rfl

/-- After a run a file holds what it held before and what was written to it, in order. -/
theorem content_run (fs : FileSystem) (records : List ρ) (path : Text) :
    (runFrom (emit file lines) fs records).content path =
      fs.content path ++
        (records.filter fun r => file r = path).flatMap (written file lines fs) := by
  induction records generalizing fs with
  | nil => exact (List.append_nil _).symm
  | cons r records ih =>
    have hopens : (emit file lines fs r).opens = fs.opens := opens_writeLines _
    have hwritten : written file lines (emit file lines fs r) = written file lines fs := by
      funext r'
      rw [written, written, hopens]
    rw [runFrom_cons, ih, hwritten, content_emit, List.filter_cons, List.append_assoc]
    by_cases hfile : file r = path
    · rw [if_pos hfile, if_pos (decide_eq_true hfile), List.flatMap_cons]
    · rw [if_neg hfile, if_neg (by simpa using hfile), List.nil_append]

/-- A file has got all its records exactly when they are UTF-8 text, and it could be opened
for them. -/
theorem complete_iff (hne : ∀ r, lines r ≠ [] ∧ ∀ line ∈ lines r, line ≠ []) (fs : FileSystem)
    (records : List ρ) (path : Text) :
    (runFrom (emit file lines) fs records).content path =
        fs.content path ++
          (records.filter fun r => file r = path).flatMap (fun r => (lines r).flatten) ↔
      ∀ r ∈ records, file r = path → fs.opens path = true ∧ ∀ line ∈ lines r, line.Scalar := by
  have hpre : ∀ r, written file lines fs r <+: (lines r).flatten := by
    intro r
    unfold written
    split
    · exact encoded_prefix _
    · exact List.nil_prefix
  have hwhole : ∀ r, written file lines fs r = (lines r).flatten ↔
      fs.opens (file r) = true ∧ ∀ line ∈ lines r, line.Scalar := by
    intro r
    unfold written
    split
    · rename_i hopen
      rw [encoded_eq_iff (hne r).2, and_iff_right hopen]
    · rename_i hclosed
      refine iff_of_false ?_ fun h => hclosed h.1
      intro hnil
      obtain ⟨line, hline⟩ := List.exists_mem_of_ne_nil _ (hne r).1
      exact (hne r).2 line hline (List.flatten_eq_nil_iff.mp hnil.symm line hline)
  rw [content_run, List.append_cancel_left_eq, flatMap_eq_iff_of_prefix fun r _ => hpre r]
  simp only [hwhole, List.mem_filter, decide_eq_true_eq, and_imp]
  exact forall₃_congr fun r _ hfile => by rw [hfile]

end Records

end FileSystem

end Ewts
