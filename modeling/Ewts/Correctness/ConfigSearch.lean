import Ewts.Integration.Ngen.Init

/-!
# The search for the configuration

The search goes from a path to its parents, which are its prefixes in front of a slash, and
the root. It ends at the first of them that holds the file.
-/

namespace Ewts.Ngen

/-- The directories of a path: itself, what stands in front of a slash that is not the first
character, and the root of an absolute path. -/
def IsDirOf (path dir : Text) : Prop :=
  (dir = path ∧ path ≠ []) ∨ (∃ rest, path = dir ++ ch '/' :: rest ∧ dir ≠ []) ∨
    (dir = text "/" ∧ path.head? = some (ch '/'))

/-- The directories on the way up when no file is found. -/
def parentDirs (path : Text) : List Text :=
  if path = [] then []
  else if getParentDirName path = [] ∨ getParentDirName path = path then [path]
  else path :: parentDirs (getParentDirName path)
termination_by path.length
decreasing_by
  rename_i hne h
  exact length_getParentDirName (fun he => h (Or.inr he)) hne

/-- The directories that `FindConfigFileFromPath` asks for the file. -/
def triedDirs (os : Os) (path : Text) : List Text :=
  if path = [] then []
  else if os.fileExists (joinPath path configFilename) then [path]
  else if getParentDirName path = [] ∨ getParentDirName path = path then [path]
  else path :: triedDirs os (getParentDirName path)
termination_by path.length
decreasing_by
  rename_i hne _ h
  exact length_getParentDirName (fun he => h (Or.inr he)) hne

/-! ## Parents -/

/-- A path without slash has no parent. -/
theorem getParentDirName_of_not_mem {path : Text} (h : ch '/' ∉ path) :
    getParentDirName path = [] := by
  have hfront : path.rdropWhile (· ≠ ch '/') = [] := by
    rw [List.rdropWhile_eq_nil_iff]
    exact fun c hc => decide_eq_true fun heq => h (heq ▸ hc)
  rw [getParentDirName, hfront, if_neg (by simp)]
  rfl

/-- The parent of a path is what stands in front of its last slash, or the root. -/
theorem getParentDirName_append {front tail : Text} (h : ch '/' ∉ tail) :
    getParentDirName (front ++ ch '/' :: tail) = if front = [] then text "/" else front := by
  have hfront : (front ++ ch '/' :: tail).rdropWhile (· ≠ ch '/') = front ++ [ch '/'] := by
    have htail : ∀ c ∈ tail, decide (c ≠ ch '/') = true :=
      fun c hc => decide_eq_true fun heq => h (heq ▸ hc)
    rw [List.append_cons, rdropWhile_append_of_pos htail, List.rdropWhile_concat_neg]
    simp
  rw [getParentDirName, hfront, List.dropLast_concat, List.length_append, List.length_singleton]
  cases front with
  | nil => rfl
  | cons c front => rw [if_neg (by simp), if_neg (List.cons_ne_nil c front)]

/-- A text with a slash has a last one. -/
theorem exists_last_slash {path : Text} (h : ch '/' ∈ path) :
    ∃ front tail, path = front ++ ch '/' :: tail ∧ ch '/' ∉ tail := by
  induction path with
  | nil => cases h
  | cons c path ih =>
    by_cases htail : ch '/' ∈ path
    · obtain ⟨front, tail, rfl, hnot⟩ := ih htail
      exact ⟨c :: front, tail, rfl, hnot⟩
    · obtain rfl : ch '/' = c := (List.mem_cons.mp h).resolve_right htail
      exact ⟨[], path, rfl, htail⟩

/-- The root is its only directory. -/
theorem isDirOf_root (dir : Text) : IsDirOf (text "/") dir ↔ dir = text "/" := by
  refine ⟨?_, fun h => Or.inl ⟨h, by decide⟩⟩
  rintro (⟨hdir, _⟩ | ⟨rest, heq, hdir⟩ | ⟨hdir, _⟩)
  · exact hdir
  · obtain ⟨c, d, rfl⟩ := List.exists_cons_of_ne_nil hdir
    have htail : [] = d ++ ch '/' :: rest := (List.cons.inj heq).2
    simp at htail
  · exact hdir

/-- Behind the root slash the directories are those of the root. -/
theorem isDirOf_below_root {tail : Text} (h : ch '/' ∉ tail) (dir : Text) :
    IsDirOf (ch '/' :: tail) dir ↔ dir = ch '/' :: tail ∨ dir = text "/" := by
  constructor
  · rintro (⟨hdir, _⟩ | ⟨rest, heq, hdir⟩ | ⟨hdir, _⟩)
    · exact Or.inl hdir
    · obtain ⟨c, d, rfl⟩ := List.exists_cons_of_ne_nil hdir
      have htail : tail = d ++ ch '/' :: rest := (List.cons.inj heq).2
      exact absurd (by rw [htail]; simp) h
    · exact Or.inr hdir
  · rintro (hdir | hdir)
    · exact Or.inl ⟨hdir, List.cons_ne_nil _ _⟩
    · exact Or.inr (Or.inr ⟨hdir, rfl⟩)

/-- Elsewhere they are those of what stands in front of the last slash. -/
theorem isDirOf_append {front tail : Text} (hne : front ≠ []) (h : ch '/' ∉ tail) (dir : Text) :
    IsDirOf (front ++ ch '/' :: tail) dir ↔
      dir = front ++ ch '/' :: tail ∨ IsDirOf front dir := by
  constructor
  · rintro (⟨hdir, _⟩ | ⟨rest, heq, hdir⟩ | ⟨hdir, hhead⟩)
    · exact Or.inl hdir
    · right
      rcases List.append_eq_append_iff.mp heq with ⟨c, hc, hrest⟩ | ⟨c, hc, hrest⟩
      · cases c with
        | nil =>
          rw [List.append_nil] at hc
          exact Or.inl ⟨hc, hne⟩
        | cons d c =>
          -- The slash of the split would stand behind the last one.
          have htail : tail = c ++ ch '/' :: rest := (List.cons.inj hrest).2
          exact absurd (by rw [htail]; simp) h
      · cases c with
        | nil =>
          rw [List.append_nil] at hc
          exact Or.inl ⟨hc.symm, hne⟩
        | cons d c =>
          have hd : ch '/' = d := (List.cons.inj hrest).1
          exact Or.inr (Or.inl ⟨c, by rw [hc, hd], hdir⟩)
    · rw [List.head?_append_of_ne_nil _ hne] at hhead
      exact Or.inr (Or.inr (Or.inr ⟨hdir, hhead⟩))
  · rintro (hdir | ⟨hdir, _⟩ | ⟨rest, heq, hdir⟩ | ⟨hdir, hhead⟩)
    · exact Or.inl ⟨hdir, by simp⟩
    · exact Or.inr (Or.inl ⟨tail, by rw [hdir], by rw [hdir]; exact hne⟩)
    · exact Or.inr (Or.inl ⟨rest ++ ch '/' :: tail, by rw [heq]; simp, hdir⟩)
    · exact Or.inr (Or.inr ⟨hdir, by rwa [List.head?_append_of_ne_nil _ hne]⟩)

/-- The directories of a path are itself and those of its parent. -/
theorem isDirOf_step {path : Text} (hne : path ≠ []) (dir : Text) : IsDirOf path dir ↔
    dir = path ∨ (¬(getParentDirName path = [] ∨ getParentDirName path = path) ∧
      IsDirOf (getParentDirName path) dir) := by
  by_cases hslash : ch '/' ∈ path
  · obtain ⟨front, tail, rfl, htail⟩ := exists_last_slash hslash
    rw [getParentDirName_append htail]
    by_cases hfront : front = []
    · subst hfront
      have hroot : text "/" ≠ [] := by decide
      rw [if_pos rfl, List.nil_append, isDirOf_below_root htail, isDirOf_root]
      by_cases hstop : text "/" = ch '/' :: tail
      · simp [hstop]
      · simp [hstop, hroot]
    · have hlonger : front ≠ front ++ ch '/' :: tail := by simp
      rw [if_neg hfront, isDirOf_append hfront htail]
      simp [hfront]
  · rw [getParentDirName_of_not_mem hslash]
    refine ⟨?_, ?_⟩
    · rintro (⟨hdir, _⟩ | ⟨rest, heq, _⟩ | ⟨_, hhead⟩)
      · exact Or.inl hdir
      · exact absurd (by rw [heq]; simp) hslash
      · exact absurd (List.mem_of_head? hhead) hslash
    · rintro (hdir | ⟨hnot, _⟩)
      · exact Or.inl ⟨hdir, hne⟩
      · exact absurd (Or.inl rfl) hnot

/-! ## The way up -/

theorem mem_parentDirs (path dir : Text) : dir ∈ parentDirs path ↔ IsDirOf path dir := by
  induction path using parentDirs.induct with
  | case1 =>
    rw [parentDirs.eq_def, if_pos rfl]
    simp [IsDirOf]
  | case2 path hne hend =>
    rw [parentDirs.eq_def, if_neg hne, if_pos hend, isDirOf_step hne]
    simp [hend]
  | case3 path hne hend ih =>
    rw [parentDirs.eq_def, if_neg hne, if_neg hend, isDirOf_step hne, List.mem_cons, ih]
    simp [hend]

/-- Each step shortens the path. -/
theorem pairwise_parentDirs (path : Text) :
    (parentDirs path).Pairwise fun a b => b.length < a.length := by
  have hbound : ∀ path, ∀ dir ∈ parentDirs path, dir.length ≤ path.length := by
    intro path
    induction path using parentDirs.induct with
    | case1 =>
      rw [parentDirs.eq_def, if_pos rfl]
      simp
    | case2 path hne hend =>
      rw [parentDirs.eq_def, if_neg hne, if_pos hend]
      simp
    | case3 path hne hend ih =>
      have hlt := length_getParentDirName (fun he => hend (Or.inr he)) hne
      rw [parentDirs.eq_def, if_neg hne, if_neg hend]
      refine List.forall_mem_cons.mpr ⟨Nat.le_refl _, fun dir hdir => ?_⟩
      exact (ih dir hdir).trans hlt.le
  induction path using parentDirs.induct with
  | case1 =>
    rw [parentDirs.eq_def, if_pos rfl]
    exact List.Pairwise.nil
  | case2 path hne hend =>
    rw [parentDirs.eq_def, if_neg hne, if_pos hend]
    exact List.pairwise_singleton _ _
  | case3 path hne hend ih =>
    have hlt := length_getParentDirName (fun he => hend (Or.inr he)) hne
    rw [parentDirs.eq_def, if_neg hne, if_neg hend]
    exact List.pairwise_cons.mpr ⟨fun dir hdir => (hbound _ dir hdir).trans_lt hlt, ih⟩

/-! ## The search -/

/-- The directory holds the file. -/
def Os.hasConfig (os : Os) (dir : Text) : Bool := os.fileExists (joinPath dir configFilename)

/-- The search goes up to the first directory that holds the file. -/
theorem triedDirs_eq (os : Os) (path : Text) : triedDirs os path =
    (parentDirs path).takeWhile (!os.hasConfig ·) ++
      ((parentDirs path).find? os.hasConfig).toList := by
  induction path using triedDirs.induct os with
  | case1 => rw [triedDirs.eq_def, parentDirs.eq_def, if_pos rfl, if_pos rfl]; rfl
  | case2 path hne hex =>
    have hhas : os.hasConfig path = true := hex
    rw [triedDirs.eq_def, parentDirs.eq_def, if_neg hne, if_neg hne, if_pos hex]
    split <;> simp [hhas]
  | case3 path hne hex hend =>
    have hhas : os.hasConfig path = false := Bool.eq_false_iff.mpr hex
    rw [triedDirs.eq_def, parentDirs.eq_def, if_neg hne, if_neg hne, if_neg hex, if_pos hend,
      if_pos hend]
    simp [hhas]
  | case4 path hne hex hend ih =>
    have hhas : os.hasConfig path = false := Bool.eq_false_iff.mpr hex
    rw [triedDirs.eq_def, parentDirs.eq_def, if_neg hne, if_neg hne, if_neg hex, if_neg hend,
      if_neg hend, ih]
    simp [hhas]

theorem triedDirs_ne_nil (os : Os) {path : Text} (h : path ≠ []) : triedDirs os path ≠ [] := by
  rw [triedDirs.eq_def, if_neg h]
  split
  · exact List.cons_ne_nil _ _
  · split <;> exact List.cons_ne_nil _ _

/-- The last directory that is tried holds the file that is found. -/
theorem findConfigFileFromPath_tried (os : Os) (path : Text) : findConfigFileFromPath os path =
    ((triedDirs os path).getLast?.filter os.hasConfig).map (joinPath · configFilename) := by
  induction path using findConfigFileFromPath.induct os with
  | case1 => rw [findConfigFileFromPath.eq_def, triedDirs.eq_def, if_pos rfl, if_pos rfl]; rfl
  | case2 path hne hex =>
    have hhas : os.hasConfig path = true := hex
    rw [findConfigFileFromPath.eq_def, triedDirs.eq_def, if_neg hne, if_neg hne, if_pos hex,
      if_pos hex]
    simp [Option.filter_some, hhas]
  | case3 path hne hex hend =>
    have hhas : os.hasConfig path = false := Bool.eq_false_iff.mpr hex
    rw [findConfigFileFromPath.eq_def, triedDirs.eq_def, if_neg hne, if_neg hne, if_neg hex,
      if_neg hex, if_pos hend, if_pos hend]
    simp [Option.filter_some, hhas]
  | case4 path hne hex hend ih =>
    have htried := triedDirs_ne_nil os fun hnil => hend (Or.inl hnil)
    rw [findConfigFileFromPath.eq_def, triedDirs.eq_def, if_neg hne, if_neg hne, if_neg hex,
      if_neg hex, if_neg hend, if_neg hend, ih, List.getLast?_cons_of_ne_nil htried]

/-- The search returns the path of the first file on its way. -/
theorem findConfigFileFromPath_eq (os : Os) (path : Text) : findConfigFileFromPath os path =
    ((parentDirs path).find? os.hasConfig).map (joinPath · configFilename) := by
  rw [findConfigFileFromPath_tried, triedDirs_eq]
  cases hfind : (parentDirs path).find? os.hasConfig with
  | some dir =>
    have hhas := List.find?_some hfind
    rw [Option.toList_some, List.getLast?_concat, Option.filter_some, if_pos hhas]
  | none =>
    have hnone := List.find?_eq_none.mp hfind
    rw [Option.toList_none, List.append_nil]
    congr 1
    rw [Option.filter_eq_none_iff]
    intro dir hdir
    exact hnone dir ((List.takeWhile_sublist _).subset (List.mem_of_getLast? hdir))

/-- In a list of ever shorter texts the first one that passes is the longest. -/
theorem find?_eq_some_iff_longest {l : List Text} (h : l.Pairwise fun a b => b.length < a.length)
    {p : Text → Bool} {dir : Text} : l.find? p = some dir ↔
      dir ∈ l ∧ p dir = true ∧ ∀ other ∈ l, p other = true → other.length ≤ dir.length := by
  induction l with
  | nil => simp
  | cons first l ih =>
    obtain ⟨hfirst, htail⟩ := List.pairwise_cons.mp h
    cases hp : p first with
    | true =>
      rw [List.find?_cons_of_pos hp]
      constructor
      · intro heq
        cases heq
        refine ⟨List.mem_cons_self .., hp, List.forall_mem_cons.mpr ⟨fun _ => Nat.le_refl _, ?_⟩⟩
        exact fun other hother _ => (hfirst other hother).le
      · rintro ⟨hmem, _, hlongest⟩
        rcases List.mem_cons.mp hmem with rfl | hmem
        · rfl
        · have hlt := hfirst dir hmem
          have hle := hlongest first (List.mem_cons_self ..) hp
          omega
    | false =>
      have hno : ¬ p first = true := Bool.eq_false_iff.mp hp
      rw [List.find?_cons_of_neg hno, ih htail]
      constructor
      · rintro ⟨hmem, hdir, hlongest⟩
        exact ⟨List.mem_cons_of_mem _ hmem, hdir, List.forall_mem_cons.mpr
          ⟨fun hyes => absurd hyes hno, hlongest⟩⟩
      · rintro ⟨hmem, hdir, hlongest⟩
        rcases List.mem_cons.mp hmem with rfl | hmem
        · exact absurd hdir hno
        · exact ⟨hmem, hdir, fun other hother => hlongest other (List.mem_cons_of_mem _ hother)⟩

/-- The search tries the directories of a path, each once and the longest first, up to the
first that holds the file. It finds a file exactly when one of them holds it, and then the one
of the longest. -/
theorem config_search (os : Os) (path : Text) :
    (∃ dirs : List Text, (∀ dir, dir ∈ dirs ↔ IsDirOf path dir) ∧
      dirs.Pairwise (fun a b => b.length < a.length) ∧
      triedDirs os path = dirs.takeWhile (!os.hasConfig ·) ++
        (dirs.find? os.hasConfig).toList) ∧
    ((findConfigFileFromPath os path).isSome ↔
      ∃ dir, IsDirOf path dir ∧ os.fileExists (joinPath dir configFilename) = true) ∧
    ∀ configPath, findConfigFileFromPath os path = some configPath →
      ∃ dir, IsDirOf path dir ∧ os.fileExists (joinPath dir configFilename) = true ∧
        configPath = joinPath dir configFilename ∧ ∀ other, IsDirOf path other →
          os.fileExists (joinPath other configFilename) = true → other.length ≤ dir.length := by
  refine ⟨⟨parentDirs path, mem_parentDirs path, pairwise_parentDirs path, triedDirs_eq os path⟩,
    ?_, ?_⟩
  · rw [findConfigFileFromPath_eq, Option.isSome_map, List.find?_isSome]
    simp only [mem_parentDirs, Os.hasConfig]
  · intro configPath hfind
    rw [findConfigFileFromPath_eq, Option.map_eq_some_iff] at hfind
    obtain ⟨dir, hdir, rfl⟩ := hfind
    obtain ⟨hmem, hhas, hlongest⟩ :=
      (find?_eq_some_iff_longest (pairwise_parentDirs path)).mp hdir
    refine ⟨dir, (mem_parentDirs path dir).mp hmem, hhas, rfl, fun other hother => ?_⟩
    exact hlongest other ((mem_parentDirs path other).mpr hother)

/-- Repeated slashes and a slash at the end make directories of their own. -/
example : parentDirs (text "/a//b/") =
    [text "/a//b/", text "/a//b", text "/a/", text "/a", text "/"] := by
  simp [parentDirs, getParentDirName, List.rdropWhile, text]

end Ewts.Ngen
