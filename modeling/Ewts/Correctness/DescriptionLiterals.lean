import Ewts.Correctness.LookupTables

/-!
# Descriptions as literals

The emitters write a description between quotes, behind the key and the id of its row. C++ and
ngen escape backslashes and then quotes. C escapes quotes only, and so a backslash is read
there as the beginning of an escape sequence.
-/

namespace Ewts.Generator

/-- A literal that stands for a text. -/
def Denotes (literal t : Text) : Prop :=
  ∃ body, literal = quote :: body ∧ readLiteral body = some (t, [])

/-- What stands in a row in front of the description. -/
def rowFront (m : Module) : Text :=
  text "    \x7b\"" ++ m.key ++ text "\", \"" ++ m.ewtsId ++ text "\", "

/-- A row with a literal that stands for the description of its module. -/
def Describes (row : Text) (m : Module) : Prop :=
  ∃ literal, row = rowFront m ++ literal ++ text "\x7d" ∧ Denotes literal m.description

/-- The literal of a row is what was written between quotes. -/
theorem describes_initializer_iff (m : Module) (desc : Text) :
    Describes (initializer m desc) m ↔
      readLiteral (desc ++ [quote]) = some (m.description, []) := by
  have hrow : initializer m desc =
      rowFront m ++ (quote :: (desc ++ [quote])) ++ text "\x7d" := by
    have hmiddle : text "\", \"" = text "\", " ++ [quote] := rfl
    have hend : text "\"\x7d" = quote :: text "\x7d" := rfl
    rw [initializer, rowFront, hend]
    nth_rewrite 2 [hmiddle]
    simp only [List.append_assoc, List.cons_append, List.nil_append]
  constructor
  · rintro ⟨literal, hliteral, body, rfl, hread⟩
    rw [hrow, List.append_cancel_right_eq, List.append_cancel_left_eq] at hliteral
    rwa [(List.cons.inj hliteral).2]
  · intro hread
    exact ⟨_, hrow, _, rfl, hread⟩

/-- Printable characters are no line breaks. -/
theorem needsEscape_of_printable {c : CodePoint} (h : 0x20 ≤ c.val ∧ c.val ≤ 0x7E)
    (hquote : c ≠ quote) (hback : c ≠ backslash) : needsEscape c = false := by
  simp only [needsEscape, isBreak, Bool.or_eq_false_iff, decide_eq_false_iff_not]
  exact ⟨⟨hquote, hback⟩, by omega, by omega⟩

/-- Quotes and backslashes need an escape. -/
theorem countP_needsEscape (t : Text) :
    t.countP (· = quote) + t.countP (· = backslash) ≤ t.countP needsEscape := by
  induction t with
  | nil => exact Nat.le_refl _
  | cons c t ih =>
    have hne : backslash ≠ quote := by decide
    rw [List.countP_cons, List.countP_cons, List.countP_cons]
    by_cases hquote : c = quote
    · have hneeds : needsEscape quote = true := by decide
      simp only [hquote, hneeds, hne.symm, decide_true, decide_false, ite_true,
        Bool.false_eq_true, ite_false]
      omega
    · by_cases hback : c = backslash
      · have hneeds : needsEscape backslash = true := by decide
        simp only [hback, hneeds, hne, decide_true, decide_false, ite_true, Bool.false_eq_true,
          ite_false]
        omega
      · simp only [hquote, hback, decide_false, Bool.false_eq_true, ite_false]
        omega

section Printable

variable {m : Module} (h : ∀ c ∈ m.description, 0x20 ≤ c.val ∧ c.val ≤ 0x7E)
include h

/-- The C literal is long enough for its quotes, but not for backslashes. -/
theorem describes_cRow_iff :
    Describes (initializer m (replaceChar quote [backslash, quote] m.description)) m ↔
      backslash ∉ m.description := by
  rw [describes_initializer_iff]
  constructor
  · intro hread hmem
    have hle := literalLength_le hread
    have hcount := countP_needsEscape m.description
    have hpos : 0 < m.description.countP (· = backslash) :=
      List.countP_pos_iff.mpr ⟨backslash, hmem, decide_eq_true rfl⟩
    rw [List.length_append, length_replaceChar, List.length_singleton, literalLength] at hle
    omega
  · intro hback
    apply readLiteral_flatMap
    intro c hc
    exact spells_quote fun hquote =>
      needsEscape_of_printable (h c hc) hquote fun heq => hback (heq ▸ hc)

/-- The C++ literal spells both. -/
theorem describes_cppRow :
    Describes (initializer m (replaceChar quote [backslash, quote]
      (replaceChar backslash [backslash, backslash] m.description))) m := by
  rw [describes_initializer_iff]
  have hread := readLiteral_flatMap (fun c hc => spells_backslash fun hback hquote =>
    needsEscape_of_printable (h c hc) hquote hback) []
  rwa [← List.flatMap_assoc] at hread

end Printable

/-- All literals stand for the descriptions exactly when these hold no backslash. -/
theorem description_literals_iff {modules : List Module}
    (h : ∀ m ∈ modules, ∀ c ∈ m.description, 0x20 ≤ c.val ∧ c.val ≤ 0x7E) :
    (List.Forall₂ Describes (cRows modules) modules ∧
      List.Forall₂ Describes (cppRows modules) modules ∧
        List.Forall₂ Describes (ngenRows modules) modules) ↔
      ∀ m ∈ modules, backslash ∉ m.description := by
  simp only [cRows, cppRows, ngenRows, List.forall₂_map_left_iff, List.forall₂_same]
  constructor
  · rintro ⟨hc, _, _⟩ m hm
    exact (describes_cRow_iff (h m hm)).mp (hc m hm)
  · intro hback
    have hcpp := fun m hm => describes_cppRow (h m hm)
    exact ⟨fun m hm => (describes_cRow_iff (h m hm)).mpr (hback m hm), hcpp, hcpp⟩

/-- A description with quotes. -/
private def quotedModules : List Module :=
  [⟨text "cfe-s", text "CFE", .c, text "Schaake \"runoff\""⟩]

theorem description_literals_iff_quoted :
    List.Forall₂ Describes (cRows quotedModules) quotedModules ∧
      List.Forall₂ Describes (cppRows quotedModules) quotedModules ∧
        List.Forall₂ Describes (ngenRows quotedModules) quotedModules :=
  (description_literals_iff (by decide)).mpr (by decide)

/-- A description with a backslash in front of a letter. -/
theorem backslash_description_lost :
    ¬ ∀ modules : List Module,
      (∀ m ∈ modules, ∀ c ∈ m.description, 0x20 ≤ c.val ∧ c.val ≤ 0x7E) →
        List.Forall₂ Describes (cRows modules) modules := by
  intro h
  have hrow := h [⟨text "cfe", text "CFE", .c, text "runs\\tests"⟩] (by decide)
  rw [cRows, List.forall₂_map_left_iff, List.forall₂_same] at hrow
  have hread := (describes_initializer_iff _ _).mp (hrow _ (List.mem_singleton_self _))
  exact absurd hread (by decide +kernel)

end Ewts.Generator
