import Ewts.Core.Search
import Ewts.Runtime.Python.Str

/-!
# Paths

What the runtime uses of `pathlib` on POSIX: a path is its root and its parts, and the
name of a payload file is made from the stem and the suffix of the log file.
-/

namespace Ewts.Python

/-- A pure path: the root is empty, `/` or `//`. -/
structure Path where
  root : Text
  parts : List Text
  deriving DecidableEq

namespace Path

/-- `Path(s)`: empty parts and `.` are left out. -/
def parse (s : Text) : Path where
  root :=
    if text "//" <+: s ∧ ¬ text "///" <+: s then text "//"
    else if text "/" <+: s then text "/" else []
  parts := (s.splitOn (ch '/')).filter fun part => part ≠ [] ∧ part ≠ text "."

/-- `str(path)`. -/
def str (p : Path) : Text :=
  if p.root = [] ∧ p.parts = [] then text "."
  else p.root ++ (text "/").intercalate p.parts

/-- `p / q`. -/
def join (p q : Path) : Path := if q.root ≠ [] then q else ⟨p.root, p.parts ++ q.parts⟩

/-- `path.name`. -/
def name (p : Path) : Text := p.parts.getLast?.getD []

/-- A name up to its last dot, if there is one with something before and behind it. -/
def beforeSuffix (name : Text) : Option Text :=
  let head := name.rdropWhile (· ≠ ch '.')
  if 1 < head.length ∧ head.length < name.length then some head.dropLast else none

/-- `path.stem`. -/
def stem (p : Path) : Text := (beforeSuffix p.name).getD p.name

/-- `path.suffix`. -/
def suffix (p : Path) : Text := p.name.drop p.stem.length

/-- `path.with_name(name)`; a path without a name has no sibling. -/
def withName (p : Path) (name : Text) : Option Path :=
  if p.name = [] ∨ name = [] ∨ ch '/' ∈ name ∨ name = text "." then none
  else some ⟨p.root, p.parts.dropLast ++ [name]⟩

/-- `path.expanduser()`, where `home` is what `os.path.expanduser` makes of the first part. -/
def expanduser (home : Text → Text) (p : Path) : Option Path :=
  match p.root, p.parts with
  | [], part :: parts =>
    if ¬ text "~" <+: part then some p
    else if text "~" <+: home part then none
    else some ⟨(parse (home part)).root, (parse (home part)).parts ++ parts⟩
  | _, _ => some p

/-! ## Siblings -/

/-- A path with parts is written with them behind its root. -/
theorem str_of_parts {p : Path} (h : p.parts ≠ []) :
    p.str = p.root ++ (text "/").intercalate p.parts := by
  rw [str, if_neg fun hnil => h hnil.2]

/-- Another last part is another path. -/
theorem intercalate_concat_ne {sep : Text} (parts : List Text) {a b : Text} (h : a ≠ b) :
    sep.intercalate (parts ++ [a]) ≠ sep.intercalate (parts ++ [b]) := by
  induction parts with
  | nil => simpa using h
  | cons part parts ih =>
    intro heq
    apply ih
    have hcons : ∀ c, sep.intercalate (part :: (parts ++ [c])) =
        part ++ (sep ++ sep.intercalate (parts ++ [c])) := by
      intro c
      cases parts <;> simp [List.intercalate]
    simpa only [List.cons_append, hcons, List.append_cancel_left_eq] using heq

/-- A sibling of another name is another path. -/
theorem str_withName_ne {p q : Path} {name : Text} (h : p.withName name = some q)
    (hname : name ≠ p.name) : q.str ≠ p.str := by
  unfold withName at h
  split at h
  · cases h
  · rename_i hvalid
    cases h
    have hparts : p.parts ≠ [] := by
      intro hnil
      apply hvalid
      left
      rw [Path.name, hnil]
      rfl
    have hlast : p.parts = p.parts.dropLast ++ [p.name] := by
      have hget : p.name = p.parts.getLast hparts := by
        rw [Path.name, List.getLast?_eq_some_getLast hparts, Option.getD_some]
      rw [hget, List.dropLast_append_getLast]
    rw [str_of_parts hparts, str_of_parts (by simp)]
    simp only [ne_eq, List.append_cancel_left_eq]
    rw [hlast, List.dropLast_concat]
    exact intercalate_concat_ne _ hname

/-! ## Appending to a file name -/

/-- Text without the separator goes to the last part. -/
theorem splitOn_append (sep : CodePoint) (a : Text) :
    ∃ init last, sep ∉ last ∧
      ∀ b : Text, sep ∉ b → (a ++ b).splitOn sep = init ++ [last ++ b] := by
  induction a with
  | nil => exact ⟨[], [], List.not_mem_nil, fun b hb => List.splitOn_eq_singleton hb⟩
  | cons c a ih =>
    obtain ⟨init, last, hlast, h⟩ := ih
    by_cases hc : c = sep
    · refine ⟨[] :: init, last, hlast, fun b hb => ?_⟩
      rw [List.cons_append, List.splitOn_cons_eq_if_modifyHead, if_pos (beq_iff_eq.mpr hc), h b hb]
      rfl
    · have hbeq : ¬ (c == sep) = true := fun heq => hc (eq_of_beq heq)
      cases init with
      | nil =>
        refine ⟨[], c :: last, by simpa [Ne.symm hc] using hlast, fun b hb => ?_⟩
        rw [List.cons_append, List.splitOn_cons_eq_if_modifyHead, if_neg hbeq, h b hb]
        rfl
      | cons first init =>
        refine ⟨(c :: first) :: init, last, hlast, fun b hb => ?_⟩
        rw [List.cons_append, List.splitOn_cons_eq_if_modifyHead, if_neg hbeq, h b hb]
        rfl

/-- The file name of a path takes up what is appended to the text of the path. -/
theorem join_parse_append (dir : Path) (a : Text) : ∃ (root : Text) (parts : List Text)
    (last : Text), ch '/' ∉ last ∧ ∀ b : Text, ch '/' ∉ b → 2 ≤ b.length →
      dir.join (parse (a ++ b)) = ⟨root, parts ++ [last ++ b]⟩ := by
  obtain ⟨init, last, hlast, hsplit⟩ := splitOn_append (ch '/') a
  have hroot : ∀ b : Text, ch '/' ∉ b → (parse (a ++ b)).root = (parse a).root := by
    intro b hb
    have hslash : ∀ p : Text, (∀ c ∈ p, c = ch '/') → ∀ c ∈ b, c ∉ p := by
      intro p hp c hc hcp
      rw [hp c hcp] at hc
      exact hb hc
    unfold parse
    simp only [prefix_append_iff_of_disjoint (hslash (text "/") (by decide)),
      prefix_append_iff_of_disjoint (hslash (text "//") (by decide)),
      prefix_append_iff_of_disjoint (hslash (text "///") (by decide))]
  have hparts : ∀ b : Text, ch '/' ∉ b → 2 ≤ b.length → (parse (a ++ b)).parts =
      (init.filter fun part => part ≠ [] ∧ part ≠ text ".") ++ [last ++ b] := by
    intro b hb hlen
    have hkept : last ++ b ≠ [] ∧ last ++ b ≠ text "." := by
      constructor
      · intro hnil
        have hlen' := congrArg List.length hnil
        rw [List.length_append, List.length_nil] at hlen'
        omega
      · intro hdot
        have hlen' := congrArg List.length hdot
        rw [List.length_append] at hlen'
        change _ = 1 at hlen'
        omega
    have hlast : [last ++ b].filter (fun part => part ≠ [] ∧ part ≠ text ".") = [last ++ b] :=
      List.filter_cons_of_pos (decide_eq_true hkept)
    unfold parse
    simp only [hsplit b hb, List.filter_append, hlast]
  by_cases habs : (parse a).root ≠ []
  · refine ⟨(parse a).root, init.filter fun part => part ≠ [] ∧ part ≠ text ".", last,
      hlast, fun b hb hlen => ?_⟩
    rw [Path.join, hroot b hb, if_pos habs, ← hroot b hb, ← hparts b hb hlen]
  · refine ⟨dir.root, dir.parts ++ init.filter fun part => part ≠ [] ∧ part ≠ text ".", last,
      hlast, fun b hb hlen => ?_⟩
    rw [Path.join, hroot b hb, if_neg habs, hparts b hb hlen, List.append_assoc]

end Path

end Ewts.Python
