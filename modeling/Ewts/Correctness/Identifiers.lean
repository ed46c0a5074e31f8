import Ewts.Generator.Modules
import Mathlib.Data.List.Nodup

/-!
# Identifiers of modules

An identifier keeps the words of a key and forgets what is between them. So the constants of
a file are defined once exactly when no two of its keys have the same words.
-/

namespace Ewts.Generator

open Python

variable (u : Unicode)

/-! ## Words of keys -/

/-- The words of a key: its runs of letters and digits in upper case. A key without words has
the word of the fallback, and a key that begins with a digit one more word. -/
def identWords (key : Text) : List Text :=
  match wordsOf isSeparator (u.upper (strip key)) with
  | [] => [text "MODULE"]
  | w :: ws => if w.head?.any CodePoint.isDigit then text "M" :: w :: ws else w :: ws

/-- What is no separator is ASCII. -/
theorem ascii_of_not_separator {c : CodePoint} (h : isSeparator c = false) : c.val < 0x80 := by
  simp only [isSeparator, Bool.not_eq_false', Bool.or_eq_true, Bool.and_eq_true,
    decide_eq_true_eq] at h
  omega

/-- The words of an identifier are not empty and have no separators. -/
theorem mem_identWords {key w : Text} (hw : w ∈ identWords u key) :
    w ≠ [] ∧ ∀ c ∈ w, isSeparator c = false := by
  have hfallback : ∀ c ∈ text "MODULE", isSeparator c = false := by decide
  have hm : ∀ c ∈ text "M", isSeparator c = false := by decide
  have hwords : ∀ w ∈ wordsOf isSeparator (u.upper (strip key)),
      w ≠ [] ∧ ∀ c ∈ w, isSeparator c = false := fun w hw => mem_wordsOf hw
  unfold identWords at hw
  cases hkey : wordsOf isSeparator (u.upper (strip key)) with
  | nil =>
    rw [hkey] at hw
    rw [List.mem_singleton.mp hw]
    exact ⟨by decide, hfallback⟩
  | cons v vs =>
    rw [hkey] at hw hwords
    simp only at hw
    split at hw
    · rcases List.mem_cons.mp hw with rfl | hw
      · exact ⟨by decide, hm⟩
      · exact hwords w hw
    · exact hwords w hw

theorem identWords_ne_nil (key : Text) : identWords u key ≠ [] := by
  unfold identWords
  split
  · exact List.cons_ne_nil _ _
  · split <;> exact List.cons_ne_nil _ _

/-- An identifier is its words, joined by underscores. -/
theorem identFromKey_eq (key : Text) :
    identFromKey u key = [ch '_'].intercalate (identWords u key) := by
  have hsep : isSeparator (ch '_') = true := by decide
  have hwords : ∀ w ∈ wordsOf isSeparator (u.upper (strip key)),
      w ≠ [] ∧ ∀ c ∈ w, isSeparator c = false := fun w hw => mem_wordsOf hw
  unfold identFromKey identWords
  simp only [subRuns_subRuns hsep, trimWith_subRuns hsep]
  cases hkey : wordsOf isSeparator (u.upper (strip key)) with
  | nil =>
    have hdigit : u.isDigit (ch 'M') = false := by
      rw [u.isDigit_ascii _ (by decide)]
      decide
    have hhead : (text "MODULE").head?.any u.isDigit = false := hdigit
    rw [List.intercalate_nil, if_pos rfl, hhead]
    exact List.intercalate_singleton.symm
  | cons w ws =>
    rw [hkey] at hwords
    obtain ⟨hw, hmem⟩ := hwords w (List.mem_cons_self ..)
    have hne : [ch '_'].intercalate (w :: ws) ≠ [] := (intercalate_ends hwords (by simp)).1
    -- A word is ASCII, where the digits are the ten decimal ones.
    have hdigit : w.head?.any u.isDigit = w.head?.any CodePoint.isDigit := by
      cases hhead : w.head? with
      | none => rfl
      | some c =>
        exact u.isDigit_ascii c (ascii_of_not_separator (hmem c (List.mem_of_head? hhead)))
    rw [if_neg hne, head?_intercalate hw, hdigit]
    simp only
    split
    · rw [List.intercalate_cons_cons]
      rfl
    · rfl

/-- Identifiers are told apart by their words. -/
theorem identFromKey_inj {key key' : Text} :
    identFromKey u key = identFromKey u key' ↔ identWords u key = identWords u key' := by
  have hsep : ∀ key, ∀ w ∈ identWords u key, ch '_' ∉ w := by
    intro key w hw hmem
    have hfalse := (mem_identWords u hw).2 _ hmem
    exact absurd hfalse (by decide)
  rw [identFromKey_eq, identFromKey_eq]
  constructor
  · exact intercalate_inj (identWords_ne_nil u key) (identWords_ne_nil u key') (hsep key)
      (hsep key')
  · exact congrArg _

/-! ## Normal form -/

/-- The characters of identifiers: capital letters, digits and the underscore. -/
def IsIdentChar (c : CodePoint) : Prop :=
  (0x41 ≤ c.val ∧ c.val ≤ 0x5A) ∨ (0x30 ≤ c.val ∧ c.val ≤ 0x39) ∨ c = ch '_'

theorem not_separator_iff {c : CodePoint} : isSeparator c = false ↔
    (0x41 ≤ c.val ∧ c.val ≤ 0x5A) ∨ (0x30 ≤ c.val ∧ c.val ≤ 0x39) := by
  simp only [isSeparator, Bool.not_eq_false', Bool.or_eq_true, Bool.and_eq_true, decide_eq_true_eq]

/-- The first word begins with a letter. -/
theorem head_identWords {key w : Text} {ws : List Text} (h : identWords u key = w :: ws) :
    w.head?.any CodePoint.isDigit = false := by
  unfold identWords at h
  split at h
  · cases h
    rfl
  · split at h
    · cases h
      rfl
    · rename_i hdigit
      cases h
      exact Bool.eq_false_iff.mpr hdigit

theorem isIdentChar_of_mem {key : Text} {c : CodePoint} (h : c ∈ identFromKey u key) :
    IsIdentChar c := by
  rw [identFromKey_eq] at h
  rcases mem_intercalate h with rfl | ⟨w, hw, hc⟩
  · exact Or.inr (Or.inr rfl)
  · rcases not_separator_iff.mp ((mem_identWords u hw).2 c hc) with hupper | hdigit
    · exact Or.inl hupper
    · exact Or.inr (Or.inl hdigit)

/-- An identifier begins and ends with characters of words. -/
theorem identFromKey_ends (key : Text) : identFromKey u key ≠ [] ∧
    (∀ c ∈ (identFromKey u key).head?, isSeparator c = false) ∧
      ∀ c ∈ (identFromKey u key).getLast?, isSeparator c = false := by
  rw [identFromKey_eq]
  exact intercalate_ends (fun w hw => mem_identWords u hw) (identWords_ne_nil u key)

/-- An identifier has its own words. -/
theorem identWords_identFromKey (key : Text) :
    identWords u (identFromKey u key) = identWords u key := by
  have hchars : ∀ c ∈ identFromKey u key, IsIdentChar c := fun c hc => isIdentChar_of_mem u hc
  have hgraphic : ∀ c, IsIdentChar c → 0x21 ≤ c.val ∧ c.val ≤ 0x7E := by
    rintro c (hc | hc | rfl)
    · omega
    · omega
    · decide
  obtain ⟨hne, hhead, hlast⟩ := identFromKey_ends u key
  have hspace : ∀ c ∈ identFromKey u key, isSpace c = false :=
    fun c hc => isSpace_of_graphic (hgraphic c (hchars c hc))
  have hstrip : strip (identFromKey u key) = identFromKey u key := by
    have haround := trimWith_around (p := isSpace) (a := []) (b := []) (by simp) (by simp) hne
      (fun c hc => hspace c (List.mem_of_head? hc)) fun c hc => hspace c (List.mem_of_getLast? hc)
    rwa [List.nil_append, List.append_nil] at haround
  have hupper : u.upper (identFromKey u key) = identFromKey u key := by
    rw [u.upper_of_ascii fun c hc => by have := hgraphic c (hchars c hc); omega]
    refine (List.map_congr_left fun c hc => ?_).trans (List.map_id _)
    rw [CodePoint.toUpper, if_neg]
    · rfl
    · rcases hchars c hc with hc | hc | rfl
      · omega
      · omega
      · decide
  conv_lhs => unfold identWords
  rw [hstrip, hupper, identFromKey_eq,
    wordsOf_intercalate (by decide) fun w hw => mem_identWords u hw]
  cases hwords : identWords u key with
  | nil => exact absurd hwords (identWords_ne_nil u key)
  | cons w ws => simp only [head_identWords u hwords, Bool.false_eq_true, ite_false]

/-- Identifiers are in normal form: capital letters, digits and single underscores between
them, with a letter in front. Making an identifier of one does nothing. -/
theorem identFromKey_normal (key : Text) :
    identFromKey u key ≠ [] ∧ (∀ c ∈ identFromKey u key, IsIdentChar c) ∧
      (∀ c ∈ (identFromKey u key).head?, 0x41 ≤ c.val ∧ c.val ≤ 0x5A) ∧
      (identFromKey u key).getLast? ≠ some (ch '_') ∧
      ¬ text "__" <:+: identFromKey u key ∧
      identFromKey u (identFromKey u key) = identFromKey u key := by
  obtain ⟨hne, hhead, hlast⟩ := identFromKey_ends u key
  have hwords : ∀ w ∈ identWords u key, w ≠ [] ∧ ch '_' ∉ w := fun w hw =>
    ⟨(mem_identWords u hw).1, fun hmem => absurd ((mem_identWords u hw).2 _ hmem) (by decide)⟩
  have hpair := not_pair_intercalate hwords
  rw [← identFromKey_eq] at hpair
  refine ⟨hne, fun c hc => isIdentChar_of_mem u hc, ?_, ?_, hpair, ?_⟩
  · intro c hc
    obtain ⟨w, ws, hwords⟩ := List.exists_cons_of_ne_nil (identWords_ne_nil u key)
    have hw := mem_identWords u (hwords ▸ List.mem_cons_self .. : w ∈ identWords u key)
    have hdigit := head_identWords u hwords
    rcases not_separator_iff.mp (hhead c hc) with hupper | hc'
    · exact hupper
    · rw [identFromKey_eq, hwords, head?_intercalate hw.1] at hc
      rw [hc] at hdigit
      simp only [Option.any_some, CodePoint.isDigit, Bool.and_eq_false_iff,
        decide_eq_false_iff_not] at hdigit
      omega
  · intro hunderscore
    exact absurd (hlast _ hunderscore) (by decide)
  · rw [identFromKey_eq, identWords_identFromKey, ← identFromKey_eq]

/-! ## Definitions -/

/-- Identifiers are different exactly when the words are. -/
theorem nodup_identifiers_iff (modules : List Module) :
    (modules.map fun m => identFromKey u m.key).Nodup ↔
      (modules.map fun m => identWords u m.key).Nodup := by
  unfold List.Nodup
  rw [List.pairwise_map, List.pairwise_map]
  exact List.Pairwise.iff fun a b => not_congr (identFromKey_inj u)

/-- Two labels before each identifier make no name twice when the identifiers differ. -/
theorem nodup_labelled_iff {label label' : Text} (h : ∀ i j, label ++ i ≠ label' ++ j)
    (ids : List Text) :
    (ids.flatMap fun i => [label ++ i, label' ++ i]).Nodup ↔ ids.Nodup := by
  have hpair : ∀ i, [label ++ i, label' ++ i].Nodup := by
    intro i
    rw [List.nodup_cons, List.mem_singleton]
    exact ⟨h i i, List.nodup_singleton _⟩
  have hdisjoint : ∀ i j,
      List.Disjoint [label ++ i, label' ++ i] [label ++ j, label' ++ j] ↔ i ≠ j := by
    intro i j
    simp only [List.disjoint_cons_left, List.mem_cons, List.append_cancel_left_eq, h,
      (h _ _).symm, List.not_mem_nil, or_false, false_or, List.disjoint_nil_left, and_true,
      and_self]
  rw [List.nodup_flatMap]
  refine (and_iff_right fun i _ => hpair i).trans ?_
  exact List.Pairwise.iff hdisjoint

/-- The names that a file of constants defines, for each kind of them. -/
def definedNames (language : Language) (modules : List Module) : List (List Text) :=
  match language with
  | .python => [(enumMembers u modules).map Declaration.name,
      (assignments u modules).map Declaration.name]
  | _ => [(declarations u modules).map Declaration.name]

/-- Constants are defined once exactly when the identifiers differ. -/
theorem nodup_declarations_iff (modules : List Module) :
    ((declarations u modules).map Declaration.name).Nodup ↔
      (modules.map fun m => identFromKey u m.key).Nodup := by
  have hlabels : ∀ i j : Text, text "EWTS_KEY_" ++ i ≠ text "EWTS_ID_" ++ j := by
    intro i j h
    have hpre := congrArg (List.take 6) h
    rw [List.take_append_of_le_length (by decide), List.take_append_of_le_length (by decide)]
      at hpre
    exact absurd hpre (by decide)
  have hnames : (declarations u modules).map Declaration.name =
      (modules.map fun m => identFromKey u m.key).flatMap fun i =>
        [text "EWTS_KEY_" ++ i, text "EWTS_ID_" ++ i] := by
    simp [declarations, List.map_flatMap, List.flatMap_map]
  rw [hnames, nodup_labelled_iff hlabels]

/-- A file of constants defines no name twice exactly when the identifiers differ. -/
theorem definedNames_nodup_iff (language : Language) (modules : List Module) :
    (∀ names ∈ definedNames u language modules, names.Nodup) ↔
      (modules.map fun m => identFromKey u m.key).Nodup := by
  have hmembers : (enumMembers u modules).map Declaration.name =
      modules.map fun m => identFromKey u m.key := by
    simp [enumMembers]
  have hassigned : (modules.map fun m => identFromKey u m.key).Nodup →
      ((assignments u modules).map Declaration.name).Nodup := by
    intro h
    have hsuffix : ∀ s : Text, (modules.map fun m => identFromKey u m.key ++ s).Nodup := by
      intro s
      have hmap := h.map (f := fun i => i ++ s) fun i j hij => List.append_cancel_right hij
      simpa [Function.comp_def] using hmap
    simp only [assignments, List.map_append, List.map_map, Function.comp_def]
    refine List.Nodup.append (hsuffix _) (hsuffix _) ?_
    intro name hkey hid
    obtain ⟨m, _, rfl⟩ := List.mem_map.mp hkey
    obtain ⟨n, _, hn⟩ := List.mem_map.mp hid
    -- The names end differently.
    have hlast := congrArg List.getLast? hn
    rw [List.getLast?_append_of_ne_nil _ (by decide),
      List.getLast?_append_of_ne_nil _ (by decide)] at hlast
    exact absurd hlast (by decide)
  cases language with
  | python =>
    simp only [definedNames, List.forall_mem_cons, hmembers, List.not_mem_nil, false_implies,
      implies_true, and_true]
    exact and_iff_left_of_imp hassigned
  | _ => simpa [definedNames] using nodup_declarations_iff u modules

/-- In every language the identifiers are different, and a name is defined once, exactly when no
two keys of the language have the same words. In the files of ngen it takes the words of all
keys. -/
theorem identifiers_distinct_iff (modules : List Module) :
    ((∀ language,
        ((modulesForLanguage modules language).map fun m => identFromKey u m.key).Nodup ∧
          ∀ names ∈ definedNames u language (modulesForLanguage modules language), names.Nodup) ↔
      ∀ language, ((modulesForLanguage modules language).map fun m => identWords u m.key).Nodup) ∧
    (((declarations u modules).map Declaration.name).Nodup ↔
      (modules.map fun m => identWords u m.key).Nodup) := by
  constructor
  · apply forall_congr'
    intro language
    rw [definedNames_nodup_iff, and_self, nodup_identifiers_iff]
  · rw [nodup_declarations_iff, nodup_identifiers_iff]

/-- A registry of texts. -/
def sampleRegistry (entries : List (String × String × String)) : Data :=
  .dict [(.str (text "modules"), .list (entries.map fun e =>
    .dict [(.str (text "key"), .str (text e.1)), (.str (text "ewts_id"), .str (text e.2.1)),
      (.str (text "language"), .str (text e.2.2))]))]

/-- Two accepted keys of one language that differ only in what is between their words. -/
theorem identifiers_collide : ∃ modules,
    readRegistry .ascii (fun _ => none) (sampleRegistry
        [("t-route", "TROUTE", "python"), ("t route", "TROUTE", "python")]) = .ok modules ∧
      ¬ ((modulesForLanguage modules .python).map fun m => identFromKey .ascii m.key).Nodup :=
  ⟨[⟨text "t-route", text "TROUTE", .python, []⟩, ⟨text "t route", text "TROUTE", .python, []⟩],
    by decide, by decide⟩

end Ewts.Generator
