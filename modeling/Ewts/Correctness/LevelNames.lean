import Ewts.Generator.Levels
import Mathlib.Data.List.Find

/-!
# Names of levels

The functions of the four languages agree on every number, and the cases of C and Fortran are
different, exactly when the specification names different numbers of a default integer with
names that fit into 16 characters.
-/

namespace Ewts.Generator

open Python

/-! ## Accepted specifications -/

theorem Dict.set_ne_nil {κ β : Type} [DecidableEq κ] (k : κ) (v : β) (d : Dict κ β) :
    d.set k v ≠ [] := by
  cases d with
  | nil => exact List.cons_ne_nil _ _
  | cons e d =>
    unfold Dict.set
    split <;> exact List.cons_ne_nil _ _

/-- Parsed levels are not empty when there is an item. -/
theorem parseLevels_ne_nil {parsed levels : Dict Text LevelValue} {items : List (Data × Data)}
    (h : parseLevels parsed items = .ok levels) (hne : parsed ≠ [] ∨ items ≠ []) :
    levels ≠ [] := by
  induction items generalizing parsed with
  | nil =>
    cases h
    exact hne.resolve_right fun h => h rfl
  | cons item items ih =>
    obtain ⟨name, val⟩ := item
    have hset : ∀ k v, parseLevels (parsed.set k v) items = .ok levels → levels ≠ [] :=
      fun k v h => ih h (Or.inl (Dict.set_ne_nil k v parsed))
    unfold parseLevels at h
    cases name with
    | str s =>
      simp only at h
      split at h
      · cases h
      · cases val with
        | int n => exact hset _ _ h
        | bool b => exact hset _ _ h
        | _ => cases h
    | _ => cases h

/-- A name that a dictionary finds is one of its keys. -/
theorem mem_of_get_isSome {d : Dict Text LevelValue} {k : Text} (h : (d.get k).isSome = true) :
    ∃ p ∈ d, p.1 = k := by
  obtain ⟨v, hv⟩ := Option.isSome_iff_exists.mp h
  obtain ⟨p, hp, _⟩ := Option.map_eq_some_iff.mp hv
  exact ⟨p, List.mem_of_find?_eq_some hp, by simpa using List.find?_some hp⟩

/-- The default name is the name of a level. -/
theorem stableDefault_mem (current : Text) {levels : Dict Text LevelValue} (hne : levels ≠ []) :
    ∃ p ∈ levels, p.1 = stableDefault current levels := by
  unfold stableDefault
  split
  · rename_i hinfo
    exact mem_of_get_isSome hinfo
  · split
    · rename_i hcurrent
      exact mem_of_get_isSome hcurrent
    · cases hmin : (levels.map (·.2.num)).min? with
      | none => exact absurd (List.map_eq_nil_iff.mp (List.min?_eq_none_iff.mp hmin)) hne
      | some least =>
        obtain ⟨p, hp, hleast⟩ := List.mem_map.mp (List.min?_mem hmin)
        have hfound : (levels.find? (·.2.num = least)).isSome = true :=
          List.find?_isSome.mpr ⟨p, hp, decide_eq_true hleast⟩
        obtain ⟨q, hq⟩ := Option.isSome_iff_exists.mp hfound
        simp only [hq, Option.map_some, Option.getD_some]
        exact ⟨q, List.mem_of_find?_eq_some hq, rfl⟩

/-- So it is in every accepted specification. -/
theorem defaultName_mem {print : Data → Option Text} {current specPath : Text} {data : Data}
    {spec : LogLevels} (h : loadLogLevels print current specPath data = .ok spec) :
    ∃ p ∈ spec.levels, p.1 = spec.defaultName := by
  unfold loadLogLevels at h
  split at h
  · split at h
    · rename_i top _ item items _
      cases hlevels : parseLevels [] (item :: items) with
      | error e => rw [hlevels] at h; cases h
      | ok levels =>
        cases hinfo : jsonMeta print (text "log_levels.json") specPath top with
        | error e => rw [hlevels, hinfo] at h; cases h
        | ok info =>
          rw [hlevels, hinfo] at h
          cases h
          exact stableDefault_mem current
            (parseLevels_ne_nil hlevels (Or.inr (List.cons_ne_nil _ _)))
    · cases h
  · cases h

/-! ## The functions -/

/-- A name of the languages: letters, digits and underscores, not a digit first. -/
def IsIdentifier (s : Text) : Prop :=
  s ≠ [] ∧ (∀ c ∈ s, (c.toUpper.val ≥ 0x41 ∧ c.toUpper.val ≤ 0x5A) ∨ c.isDigit = true ∨
    c = ch '_') ∧ s.head?.any CodePoint.isDigit = false

instance (s : Text) : Decidable (IsIdentifier s) := inferInstanceAs (Decidable (_ ∧ _ ∧ _))

/-- The cases of C and Fortran are different, and the functions of the four languages give one
name to each number; the blanks that fill the name of Fortran do not count. -/
structure LogLevels.Agree (spec : LogLevels) : Prop where
  labels : ∃ cases, spec.cases = some cases ∧ (cases.map Prod.snd).Nodup
  names : ∀ level : Int, -2147483648 ≤ level → level ≤ 2147483647 → ∃ name,
    spec.cName level = some name ∧ spec.cppName level = some name ∧
      (spec.fortranName level).map Fortran.trim = some name ∧ spec.pythonName level = name

/-- A specification of different numbers of a default integer, with names of 16 characters. -/
structure LogLevels.Fits (spec : LogLevels) : Prop where
  numbers : ∀ p ∈ spec.levels, ∃ n : Int, p.2 = .int n ∧ -2147483647 ≤ n ∧ n ≤ 2147483647
  distinct : (spec.levels.map fun p => p.2.num).Nodup
  names : ∀ p ∈ spec.levels, p.1.length ≤ 16

section Functions

variable {spec : LogLevels}

theorem mem_sorted {p : Text × LevelValue} : p ∈ spec.sorted ↔ p ∈ spec.levels :=
  (List.perm_insertionSort _ _).mem_iff

/-- The cases hold the numbers of the levels, in order, when all of them are numbers. -/
theorem cases_eq_some_iff {cases : List (Text × Int)} : spec.cases = some cases ↔
    (∀ p ∈ spec.levels, ∃ n, p.2 = .int n) ∧
      cases = spec.sorted.map fun p => (p.1, p.2.num) := by
  have hlist : ∀ (l : List (Text × LevelValue)) (cases : List (Text × Int)),
      l.mapM (fun c => c.2.constant.map fun n => (c.1, n)) = some cases ↔
        (∀ p ∈ l, ∃ n, p.2 = .int n) ∧ cases = l.map fun p => (p.1, p.2.num) := by
    intro l
    induction l with
    | nil => intro cases; simp [eq_comm]
    | cons p l ih =>
      intro cases
      obtain ⟨name, value⟩ := p
      rw [List.mapM_cons]
      cases value with
      | bool b => simp [LevelValue.constant]
      | int n =>
        have hconstant : (LevelValue.int n).constant = some n := rfl
        simp only [hconstant, Option.map_some, Option.bind_eq_bind, Option.bind_some,
          Option.bind_eq_some_iff, ih]
        constructor
        · rintro ⟨rest, ⟨hnumbers, rfl⟩, hlast⟩
          cases hlast
          exact ⟨List.forall_mem_cons.mpr ⟨⟨n, rfl⟩, hnumbers⟩, rfl⟩
        · rintro ⟨hnumbers, rfl⟩
          exact ⟨_, ⟨(List.forall_mem_cons.mp hnumbers).2, rfl⟩, rfl⟩
  unfold LogLevels.cases
  rw [hlist]
  simp only [mem_sorted]

/-- The first case with a number is the first level with it. -/
theorem nameWhere_eq (level : Int) :
    spec.nameWhere (spec.sorted.map fun p => (p.1, p.2.num)) (· = level) =
      spec.pythonName level := by
  have hfirst : spec.sorted.find? (·.2.num = level) = spec.levels.find? (·.2.num = level) :=
    find?_insertionSort (fun p => p.2.num) spec.levels level
  rw [LogLevels.nameWhere, LogLevels.pythonName, List.find?_map, Option.map_map, ← hfirst]
  rfl

/-- Numbers of an `int` are labels as they are. -/
theorem toInt32_of_bounds {n : Int} (hlow : -2147483648 ≤ n) (hhigh : n ≤ 2147483647) :
    toInt32 n = n := by
  rw [toInt32, Int.bmod_def]
  omega

/-- Identifiers have no blanks. -/
theorem IsIdentifier.ne_blank {s : Text} (h : IsIdentifier s) {c : CodePoint} (hc : c ∈ s) :
    c ≠ ch ' ' := by
  rintro rfl
  rcases h.2.1 _ hc with hletter | hdigit | hunder
  · exact absurd hletter (by decide)
  · exact absurd hdigit (by decide)
  · exact absurd hunder (by decide)

/-- What is left of a name in a variable of 16 characters. -/
theorem IsIdentifier.trim_assign {s : Text} (h : IsIdentifier s) :
    Fortran.trim (Fortran.assign 16 s) = s.take 16 :=
  Fortran.trim_assign fun _ hc => h.ne_blank (List.mem_of_mem_take (List.mem_of_getLast? hc))

/-- A level is found under its number when the numbers are different. -/
theorem pythonName_of_mem (h : (spec.levels.map fun p => p.2.num).Nodup)
    {p : Text × LevelValue} (hp : p ∈ spec.levels) : spec.pythonName p.2.num = p.1 := by
  rw [LogLevels.pythonName, find?_of_nodup_map (f := fun p => p.2.num) h hp]
  rfl

/-- The names that Python gives are names of levels. -/
theorem pythonName_mem (h : ∃ p ∈ spec.levels, p.1 = spec.defaultName) (level : Int) :
    ∃ p ∈ spec.levels, p.1 = spec.pythonName level := by
  unfold LogLevels.pythonName
  cases hfind : spec.levels.find? (·.2.num = level) with
  | none => exact h
  | some p => exact ⟨p, List.mem_of_find?_eq_some hfind, rfl⟩

/-- The numbers of the sorted levels are those of the levels. -/
theorem nodup_sorted_iff : (spec.sorted.map fun p => p.2.num).Nodup ↔
    (spec.levels.map fun p => p.2.num).Nodup :=
  ((List.perm_insertionSort _ _).map _).nodup_iff

/-- What the function of Fortran answers says that its cases are valid, and what it keeps of a
name. -/
theorem fortranName_eq_some {cases : List (Text × Int)} {level : Int} {name : Text}
    (hcases : spec.cases = some cases) (h : spec.fortranName level = some name) :
    (∀ p ∈ spec.levels, p.2.num.natAbs ≤ 2147483647) ∧
      (spec.levels.map fun p => p.2.num).Nodup ∧
        name = Fortran.assign 16 (spec.pythonName level) := by
  obtain ⟨_, rfl⟩ := cases_eq_some_iff.mp hcases
  rw [LogLevels.fortranName, hcases, Option.bind_some, nameWhere_eq] at h
  split at h
  · rename_i hvalid
    obtain ⟨hbounds, hdistinct⟩ := hvalid
    rw [List.map_map] at hdistinct
    refine ⟨fun p hp => ?_, nodup_sorted_iff.mp hdistinct, (Option.some.inj h).symm⟩
    exact hbounds _ (List.mem_map_of_mem (mem_sorted.mpr hp))
  · cases h

/-- Functions that agree have a specification that fits: Fortran cuts the names of its answers,
and has no cases that do not fit. -/
theorem LogLevels.Agree.fits (hagree : spec.Agree) (hnames : ∀ p ∈ spec.levels, IsIdentifier p.1) :
    spec.Fits := by
  obtain ⟨cases, hcases, _⟩ := hagree.labels
  have hfortran : ∀ level : Int, -2147483648 ≤ level → level ≤ 2147483647 →
      (∀ p ∈ spec.levels, p.2.num.natAbs ≤ 2147483647) ∧
        (spec.levels.map fun p => p.2.num).Nodup ∧
          Fortran.trim (Fortran.assign 16 (spec.pythonName level)) = spec.pythonName level := by
    intro level hlow hhigh
    obtain ⟨name, _, _, hname, hpython⟩ := hagree.names level hlow hhigh
    obtain ⟨answer, hanswer, htrim⟩ := Option.map_eq_some_iff.mp hname
    obtain ⟨hbounds, hdistinct, rfl⟩ := fortranName_eq_some hcases hanswer
    exact ⟨hbounds, hdistinct, htrim.trans hpython.symm⟩
  obtain ⟨hbounds, hdistinct, _⟩ := hfortran 0 (by decide) (by decide)
  refine ⟨fun p hp => ?_, hdistinct, fun p hp => ?_⟩
  · obtain ⟨n, hn⟩ := (cases_eq_some_iff.mp hcases).1 p hp
    have hbound := hbounds p hp
    rw [hn, LevelValue.num] at hbound
    exact ⟨n, hn, by omega, by omega⟩
  · have hbound := hbounds p hp
    obtain ⟨_, _, hname⟩ := hfortran p.2.num (by omega) (by omega)
    rw [pythonName_of_mem hdistinct hp, (hnames p hp).trim_assign] at hname
    rw [← hname]
    exact List.length_take_le ..

/-- The functions of a specification that fits agree when the default name is one of its names. -/
theorem LogLevels.Fits.agree (hfits : spec.Fits) (hnames : ∀ p ∈ spec.levels, IsIdentifier p.1)
    (hdefault : ∃ p ∈ spec.levels, p.1 = spec.defaultName) : spec.Agree := by
  have hcases : spec.cases = some (spec.sorted.map fun p => (p.1, p.2.num)) := by
    refine cases_eq_some_iff.mpr ⟨fun p hp => ?_, rfl⟩
    obtain ⟨n, hn, _⟩ := hfits.numbers p hp
    exact ⟨n, hn⟩
  have hbounds : ∀ c ∈ spec.sorted.map fun p => (p.1, p.2.num),
      -2147483647 ≤ c.2 ∧ c.2 ≤ 2147483647 := by
    intro c hc
    obtain ⟨p, hp, rfl⟩ := List.mem_map.mp hc
    obtain ⟨n, hn, hlow, hhigh⟩ := hfits.numbers p (mem_sorted.mp hp)
    simp only [hn, LevelValue.num]
    exact ⟨hlow, hhigh⟩
  have hdistinct : ((spec.sorted.map fun p => (p.1, p.2.num)).map Prod.snd).Nodup := by
    rw [List.map_map]
    exact nodup_sorted_iff.mpr hfits.distinct
  refine ⟨⟨_, hcases, hdistinct⟩, fun level _ _ => ⟨spec.pythonName level, ?_, ?_, ?_, rfl⟩⟩
  · -- The conversion to `int` changes no label.
    have hlabels : ∀ c ∈ spec.sorted.map fun p => (p.1, p.2.num), toInt32 c.2 = c.2 := by
      intro c hc
      obtain ⟨hlow, hhigh⟩ := hbounds c hc
      exact toInt32_of_bounds (by omega) hhigh
    have hsame : (spec.sorted.map fun p => (p.1, p.2.num)).find? (fun c => toInt32 c.2 = level) =
        (spec.sorted.map fun p => (p.1, p.2.num)).find? (fun c => c.2 = level) :=
      List.find?_congr fun c hc => by rw [hlabels c hc]
    rw [LogLevels.cName, hcases, Option.bind_some, List.map_congr_left hlabels,
      if_pos hdistinct, LogLevels.nameWhere, hsame]
    exact congrArg some (nameWhere_eq level)
  · rw [LogLevels.cppName, hcases, Option.map_some, nameWhere_eq]
  · have hvalid : ∀ c ∈ spec.sorted.map fun p => (p.1, p.2.num), c.2.natAbs ≤ 2147483647 := by
      intro c hc
      have hbound := hbounds c hc
      omega
    obtain ⟨p, hp, hname⟩ := pythonName_mem hdefault level
    rw [LogLevels.fortranName, hcases, Option.bind_some, if_pos ⟨hvalid, hdistinct⟩,
      nameWhere_eq, Option.map_some, ← hname, (hnames p hp).trim_assign,
      List.take_of_length_le (hfits.names p hp)]

end Functions

/-- A log-level specification. -/
def sampleLevels (levels : List (String × Int)) : Data :=
  .dict [(.str (text "levels"), .dict (levels.map fun e => (.str (text e.1), .int e.2)))]

/-- What is loaded of it. -/
def sampleSpec (levels : List (String × Int)) : LogLevels :=
  ⟨levels.map fun e => (text e.1, .int e.2), text "INFO",
    ⟨text "spec/log_levels.json", text "unknown", none⟩⟩

end Ewts.Generator
