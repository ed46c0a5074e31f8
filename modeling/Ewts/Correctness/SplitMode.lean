import Ewts.Integration.Ngen.Policy

/-!
# Split mode

With one file per module the same calls write the same lines as with one file for all:
the file of an id holds the lines of its calls in order. The stream map is filled
lazily, so each file is truncated once, when its id first passes the filter.
-/

namespace Ewts.Ngen

/-! ## What calls write -/

/-- The lines that a call writes, with its id. -/
def Logger.linesOfCall (lg : Logger) (c : Call) : List (Text × Text) :=
  if lg.passes c then c.lines.map fun line => (c.moduleName, line) else []

/-- The lines that calls write, in order. -/
def Logger.writtenLines (lg : Logger) (calls : List Call) : List (Text × Text) :=
  calls.flatMap lg.linesOfCall

/-- The ids whose calls pass, in the order of their first passing call. -/
def Logger.openedIds (lg : Logger) (calls : List Call) : List Text :=
  ((calls.filter lg.passes).map Call.moduleName).eraseDups

/-- The lines of one id. -/
def linesOf (id : Text) (lines : List (Text × Text)) : List (Text × Text) :=
  lines.filter fun line => line.1 = id

/-- Lines as the content of a file. -/
def contentOf (lines : List (Text × Text)) : Text := (lines.map Prod.snd).flatten

/-- One more element behind a list without its repetitions. -/
theorem eraseDups_concat {α : Type*} [DecidableEq α] [BEq α] [LawfulBEq α] (l : List α) (a : α) :
    (l ++ [a]).eraseDups = if a ∈ l then l.eraseDups else l.eraseDups ++ [a] := by
  rw [List.eraseDups_append]
  split
  · rename_i h
    have hnone : List.removeAll [a] l = [] := by simp [List.removeAll, h]
    rw [hnone, List.eraseDups_nil, List.append_nil]
  · rename_i h
    have hone : List.removeAll [a] l = [a] := by simp [List.removeAll, h]
    rw [hone]
    rfl

theorem nodup_eraseDups {α : Type*} [DecidableEq α] [BEq α] [LawfulBEq α] (l : List α) :
    l.eraseDups.Nodup := by
  induction l using List.reverseRecOn with
  | nil => exact List.nodup_nil
  | append_singleton l a ih =>
    rw [eraseDups_concat]
    split
    · exact ih
    · rename_i h
      rw [List.nodup_append]
      refine ⟨ih, List.nodup_singleton a, fun x hx y hy hxy => h ?_⟩
      rw [← List.mem_singleton.mp hy, ← hxy]
      exact List.mem_eraseDups.mp hx

/-- A list is put together from its parts by key. -/
theorem perm_flatMap_filter {α β : Type*} [DecidableEq β] (key : α → β) {keys : List β}
    (hnodup : keys.Nodup) {l : List α} (h : ∀ x ∈ l, key x ∈ keys) :
    l.Perm (keys.flatMap fun k => l.filter fun x => key x = k) := by
  induction keys generalizing l with
  | nil =>
    cases l with
    | nil => exact .nil
    | cons x l => exact absurd (h x (List.mem_cons_self ..)) (by simp)
  | cons k keys ih =>
    obtain ⟨hk, hnodup⟩ := List.nodup_cons.mp hnodup
    rw [List.flatMap_cons]
    -- The other keys see only what the first one leaves.
    have hrest : (keys.flatMap fun k' => l.filter fun x => key x = k') =
        keys.flatMap fun k' =>
          (l.filter fun x => !decide (key x = k)).filter fun x => key x = k' := by
      refine List.flatMap_congr fun k' hk' => ?_
      rw [List.filter_filter]
      refine List.filter_congr fun x _ => ?_
      by_cases hx : key x = k'
      · have hne : k' ≠ k := fun he => hk (he ▸ hk')
        simp [hx, hne]
      · simp [hx]
    have hmem : ∀ x ∈ l.filter fun x => !decide (key x = k), key x ∈ keys := by
      intro x hx
      obtain ⟨hxl, hxk⟩ := List.mem_filter.mp hx
      exact (List.mem_cons.mp (h x hxl)).resolve_left (by simpa using hxk)
    rw [hrest]
    exact (List.filter_append_perm (fun x => decide (key x = k)) l).symm.trans
      ((ih hnodup hmem).append_left _)

theorem Logger.writtenLines_concat (lg : Logger) (done : List Call) (c : Call) :
    lg.writtenLines (done ++ [c]) = lg.writtenLines done ++ lg.linesOfCall c := by
  rw [writtenLines, List.flatMap_append, List.flatMap_singleton, ← writtenLines]

theorem contentOf_append (a b : List (Text × Text)) :
    contentOf (a ++ b) = contentOf a ++ contentOf b := by
  rw [contentOf, List.map_append, List.flatten_append, ← contentOf, ← contentOf]

theorem linesOf_append (id : Text) (a b : List (Text × Text)) :
    linesOf id (a ++ b) = linesOf id a ++ linesOf id b :=
  List.filter_append ..

/-- A passing call adds its lines to those of its own id. -/
theorem Logger.linesOf_call (lg : Logger) {c : Call} (hc : lg.passes c = true) (id : Text) :
    contentOf (linesOf id (lg.linesOfCall c)) =
      if id = c.moduleName then c.lines.flatten else [] := by
  rw [linesOfCall, if_pos hc, linesOf, List.filter_map, contentOf]
  by_cases hid : id = c.moduleName
  · simp [hid, Function.comp_def]
  · simp [Ne.symm hid, hid, Function.comp_def]

theorem Logger.openedIds_concat (lg : Logger) (done : List Call) {c : Call}
    (hc : lg.passes c = true) : lg.openedIds (done ++ [c]) =
      if c.moduleName ∈ lg.openedIds done then lg.openedIds done
      else lg.openedIds done ++ [c.moduleName] := by
  rw [openedIds, List.filter_append, List.filter_singleton, hc, cond_true, List.map_append,
    List.map_singleton, eraseDups_concat, ← openedIds]
  simp only [openedIds, List.mem_eraseDups]

theorem Logger.openedIds_concat_of_not (lg : Logger) (done : List Call) {c : Call}
    (hc : lg.passes c = false) : lg.openedIds (done ++ [c]) = lg.openedIds done := by
  rw [openedIds, List.filter_append, List.filter_singleton, hc, cond_false, List.append_nil,
    ← openedIds]

/-- Every written line belongs to an id that was opened. -/
theorem Logger.mem_openedIds (lg : Logger) {calls : List Call} {line : Text × Text}
    (h : line ∈ lg.writtenLines calls) : line.1 ∈ lg.openedIds calls := by
  obtain ⟨c, hc, hline⟩ := List.mem_flatMap.mp h
  unfold linesOfCall at hline
  split at hline
  · rename_i hpass
    obtain ⟨t, _, rfl⟩ := List.mem_map.mp hline
    exact List.mem_eraseDups.mpr (List.mem_map_of_mem (List.mem_filter.mpr ⟨hc, hpass⟩))
  · cases hline

/-- An id that was not opened has no lines. -/
theorem Logger.linesOf_of_not_opened (lg : Logger) {calls : List Call} {id : Text}
    (h : id ∉ lg.openedIds calls) : linesOf id (lg.writtenLines calls) = [] := by
  rw [linesOf, List.filter_eq_nil_iff]
  intro line hline hid
  exact h (of_decide_eq_true hid ▸ lg.mem_openedIds hline)

/-- Filters that agree pass the same calls. -/
theorem Logger.passes_congr {lg lg' : Logger} (h : lg.effectiveLevel = lg'.effectiveLevel) :
    lg.passes = lg'.passes := by
  funext c
  rw [passes, passes, h]

/-! ## Paths -/

/-- ASCII without lower-case letters, slashes and NULs. -/
def SplitId (id : Text) : Prop :=
  ∀ c ∈ id, c.val < 0x80 ∧ ¬(0x61 ≤ c.val ∧ c.val ≤ 0x7A) ∧ c ≠ ch '/' ∧ c ≠ 0

/-- The path of a log file under the results directory. -/
def runPath (os : Os) (env : Environ) (stem : Text) : Text :=
  joinPath (resultsDir env) (prependLogFilePrefix env stem ++ rankPart os ++ text ".log")

/-- With a results directory file names do not depend on the clock. -/
theorem logFileName_run (os : Os) (env : Environ) {dir : Text} (hdir : dir ≠ []) (stamp : Timestamp)
    (stem : Text) :
    logFileName os env dir stamp stem =
      prependLogFilePrefix env stem ++ rankPart os ++ text ".log" := by
  rw [logFileName, tsPart, if_neg hdir, List.append_nil]

theorem filePrefix_no_nul (env : Environ) : ∀ c ∈ filePrefix env, c ≠ 0 := by
  unfold filePrefix
  split
  · exact fun c hc => absurd hc List.not_mem_nil
  · rw [List.forall_mem_append]
    exact ⟨fun c hc => cStr_no_nul (mem_of_mem_trim hc), by decide⟩

/-- A path is its stem between two texts that the process fixes. -/
theorem runPath_frame (os : Os) (env : Environ) :
    ∃ a b : Text, (∀ c ∈ a, c ≠ 0) ∧ (∀ c ∈ b, c ≠ 0) ∧
      ∀ stem, runPath os env stem = a ++ stem ++ b := by
  obtain ⟨d, hd, hjoin⟩ := joinPath_frame (resultsDir env)
  refine ⟨d ++ filePrefix env, rankPart os ++ text ".log", ?_, ?_, fun stem => ?_⟩
  · have hdir : ∀ c ∈ d, c ≠ 0 := by
      intro c hc
      rcases hd c hc with hc | rfl
      · exact cStr_no_nul hc
      · decide
    exact List.forall_mem_append.mpr ⟨hdir, filePrefix_no_nul env⟩
  · have hlabel : ∀ c ∈ text "_mpi_process_", c ≠ 0 := by decide
    have hrank : ∀ c ∈ rankPart os, c ≠ 0 := by
      intro c hc
      unfold rankPart at hc
      split at hc
      · cases hc
      · rcases List.mem_append.mp hc with hc | hc
        · exact hlabel c hc
        · rintro rfl
          exact absurd (isDigit_of_mem_decimal hc) (by decide)
    have hlog : ∀ c ∈ text ".log", c ≠ 0 := by decide
    exact List.forall_mem_append.mpr ⟨hrank, hlog⟩
  · rw [runPath, hjoin _ (by simp [text]), prependLogFilePrefix_eq]
    simp only [List.append_assoc]

/-- Ids without NUL have paths that `open` sees whole. -/
theorem cStr_runPath (os : Os) (env : Environ) {stem : Text}
    (h : ∀ c ∈ stem, c ≠ 0) : cStr (runPath os env stem) = runPath os env stem := by
  obtain ⟨a, b, ha, hb, hpath⟩ := runPath_frame os env
  apply cStr_of_no_nul
  rw [hpath]
  have hstem := List.forall_mem_append.mpr ⟨ha, h⟩
  exact List.forall_mem_append.mpr ⟨hstem, hb⟩

theorem toLower_no_nul {id : Text} (h : ∀ c ∈ id, c ≠ 0) : ∀ c ∈ toLower id, c ≠ 0 := by
  intro c hc
  obtain ⟨d, hd, rfl⟩ := List.mem_map.mp hc
  have hne := h d hd
  intro hzero
  have hval : d.toLower.val = 0 := congrArg Fin.val hzero
  rw [CodePoint.toLower_val] at hval
  split at hval
  · omega
  · exact hne (Fin.ext hval)

/-- Ids without lower-case letters are told apart in lower case. -/
theorem toLower_inj {a b : Text} (ha : SplitId a) (hb : SplitId b)
    (h : toLower a = toLower b) : a = b := by
  induction a generalizing b with
  | nil => exact (List.map_eq_nil_iff.mp h.symm).symm
  | cons c a ih =>
    cases b with
    | nil => simp [toLower] at h
    | cons d b =>
      rw [toLower, toLower, List.map_cons, List.map_cons, List.cons.injEq] at h
      have hc := (ha c (List.mem_cons_self ..)).2.1
      have hd := (hb d (List.mem_cons_self ..)).2.1
      rw [CodePoint.toLower_inj hc hd h.1, ih (fun x hx => ha x (List.mem_cons_of_mem _ hx))
        (fun x hx => hb x (List.mem_cons_of_mem _ hx)) h.2]

/-- Different ids have different files. -/
theorem runPath_inj (os : Os) (env : Environ) {id id' : Text}
    (hid : SplitId id) (hid' : SplitId id')
    (h : runPath os env (toLower id) = runPath os env (toLower id')) : id = id' := by
  obtain ⟨a, b, _, _, hpath⟩ := runPath_frame os env
  rw [hpath, hpath] at h
  exact toLower_inj hid hid' (List.append_cancel_left (List.append_cancel_right h))

/-! ## Runs -/

section Runs

variable {F : Type} {fl : Floats F} {reader : Json.TreeReader} {os : Os} {order : HashOrder}
  {env : Environ} {lg : Logger} {p : Process}

/-- A run with one file: its stream stands at the end of what was written. -/
structure Process.Unified (p : Process) (lg : Logger) (path content : Text) : Prop where
  initialized : p.initialized = true
  enabled : p.logger.loggingEnabled = true
  unified : p.logger.splitLogsByModule = false
  filter : p.logger.effectiveLevel = lg.effectiveLevel
  stream : ∃ s, p.logger.logFile = some s ∧ s.path = path ∧ s.AtEnd p.disk content

/-- A run in split mode: the opened files and what was written to each. -/
structure Process.Split (p : Process) (os : Os) (env : Environ) (lg : Logger) (ids : List Text)
    (content : Text → Text) : Prop where
  initialized : p.initialized = true
  enabled : p.logger.loggingEnabled = true
  split : p.logger.splitLogsByModule = true
  filter : p.logger.effectiveLevel = lg.effectiveLevel
  path : ∀ stamp id, p.splitPath os stamp id = runPath os env (toLower id)
  valid : ∀ id ∈ ids, SplitId id
  opened : p.disk.opened = ids.map fun id => runPath os env (toLower id)
  closed : ∀ id, id ∉ ids → p.splitLogFiles.lookup id = none
  stream : ∀ id ∈ ids, ∃ s, p.splitLogFiles.lookup id = some (some s) ∧
    s.path = runPath os env (toLower id) ∧ s.AtEnd p.disk (content id)

/-- A call on an initialised logger that is enabled, below or above `STATUS`. -/
theorem Process.log_filtered (hinit : p.initialized = true)
    (henabled : p.logger.loggingEnabled = true) {c : Call}
    (hlevel : c.messageLevel ≠ LogLevel.STATUS.value) :
    p.log fl os order reader c = if p.logger.passes c then p.emit os c else p := by
  rw [Process.log, initIfNeeded, if_pos hinit]
  simp only [henabled, Bool.true_eq_false, ite_false, if_neg hlevel]

/-- A call in a run with one file appends its lines to that file. -/
theorem Process.Unified.log {path content : Text} (h : p.Unified lg path content) {c : Call}
    (hlevel : c.messageLevel ≠ LogLevel.STATUS.value) :
    (p.log fl os order reader c).Unified lg path (content ++ contentOf (lg.linesOfCall c)) := by
  rw [Process.log_filtered h.initialized h.enabled hlevel, Logger.passes_congr h.filter,
    Logger.linesOfCall]
  split
  · obtain ⟨s, hs, rfl, hend⟩ := h.stream
    have hcontent : contentOf (c.lines.map fun line => (c.moduleName, line)) = c.lines.flatten := by
      simp [contentOf, Function.comp_def]
    have hemit : p.emit os c =
        { p with
          disk := (p.disk.writeAll s c.lines).1
          logger := { p.logger with logFile := some (p.disk.writeAll s c.lines).2 } } := by
      rw [emit, h.unified, if_neg (by simp), writeLog, hs]
    rw [hemit, hcontent]
    exact ⟨h.initialized, h.enabled, h.unified, h.filter, _, rfl, Disk.writeAll_path ..,
      hend.writeAll _⟩
  · rw [contentOf, List.map_nil, List.flatten_nil, List.append_nil]
    exact h

/-- A run with one file writes all lines in order. -/
theorem Process.Unified.logAll {path content : Text} (h : p.Unified lg path content)
    (calls : List Call) (hlevel : ∀ c ∈ calls, c.messageLevel ≠ LogLevel.STATUS.value) :
    (p.logAll fl os order reader calls).Unified lg path
      (content ++ contentOf (lg.writtenLines calls)) := by
  induction calls generalizing p content with
  | nil => simpa [contentOf, Logger.writtenLines, Process.logAll] using h
  | cons c cs ih =>
    have hstep : (p.log fl os order reader c).Unified lg path _ :=
      h.log (hlevel c (List.mem_cons_self ..))
    have hrun := ih hstep fun d hd => hlevel d (List.mem_cons_of_mem _ hd)
    rwa [List.append_assoc, ← contentOf_append] at hrun

/-- The file of an id is open behind `openSplitFile`, which truncates it only when the map
had no entry. -/
theorem Process.Split.openSplitFile {ids : List Text} {content : Text → Text}
    (h : p.Split os env lg ids content) (stamp : Timestamp) {id : Text}
    (hid : SplitId id) (hopens : os.opens (runPath os env (toLower id)) = true)
    (hnew : id ∉ ids → content id = []) :
    (p.openSplitFile os stamp id).Split os env lg (if id ∈ ids then ids else ids ++ [id])
      content := by
  by_cases hmem : id ∈ ids
  · obtain ⟨s, hs, _⟩ := h.stream id hmem
    rw [Process.openSplitFile, hs, if_pos hmem]
    exact h
  · have hpath : cStr (runPath os env (toLower id)) = runPath os env (toLower id) :=
      cStr_runPath os _ (toLower_no_nul fun c hc => (hid c hc).2.2.2)
    have hopen : p.openSplitFile os stamp id =
        { p with
          disk := p.disk.openTrunc (runPath os env (toLower id))
          splitLogFiles := p.splitLogFiles.insert id
            (some ⟨runPath os env (toLower id), 0⟩) } := by
      simp only [Process.openSplitFile, h.closed id hmem, h.path, openLog, hpath, if_pos hopens]
    rw [hopen, if_neg hmem]
    refine ⟨h.initialized, h.enabled, h.split, h.filter, h.path, ?_, ?_, ?_, ?_⟩
    · intro x hx
      rcases List.mem_append.mp hx with hx | hx
      · exact h.valid x hx
      · exact List.mem_singleton.mp hx ▸ hid
    · rw [List.map_append, List.map_singleton, ← h.opened]
      rfl
    · intro x hx
      rw [List.mem_append, List.mem_singleton, not_or] at hx
      rw [AList.lookup_insert_ne hx.2]
      exact h.closed x hx.1
    · intro x hx
      by_cases hxid : x = id
      · rw [hxid, hnew hmem, AList.lookup_insert]
        exact ⟨_, rfl, rfl, p.disk.atEnd_openTrunc _⟩
      · have hx' := (List.mem_append.mp hx).resolve_right (by simpa using hxid)
        obtain ⟨s, hs, hspath, hend⟩ := h.stream x hx'
        rw [AList.lookup_insert_ne hxid]
        refine ⟨s, hs, hspath, hend.frame (p.disk.openTrunc_other ?_)⟩
        rw [hspath]
        exact fun he => hxid (runPath_inj os _ (h.valid x hx') hid he)

/-- Writing to the file of one id leaves the other files alone. -/
theorem Process.Split.writeSplit {ids : List Text} {content : Text → Text}
    (h : p.Split os env lg ids content) {id : Text} (hid : id ∈ ids)
    {s : OutStream} (hs : p.splitLogFiles.lookup id = some (some s)) (lines : List Text) :
    (p.writeSplit id s lines).Split os env lg ids
      (Function.update content id (content id ++ lines.flatten)) := by
  obtain ⟨s', hs', hspath, hend⟩ := h.stream id hid
  rw [hs] at hs'
  cases hs'
  refine ⟨h.initialized, h.enabled, h.split, h.filter, h.path, h.valid, ?_, ?_, ?_⟩
  · exact (p.disk.writeAll_opened s lines).trans h.opened
  · intro x hx
    have hne : x ≠ id := fun he => hx (he ▸ hid)
    exact (AList.lookup_insert_ne hne).trans (h.closed x hx)
  · intro x hx
    by_cases hxid : x = id
    · rw [hxid, Function.update_self]
      exact ⟨_, AList.lookup_insert _, (Disk.writeAll_path ..).trans hspath, hend.writeAll lines⟩
    · obtain ⟨t, ht, htpath, htend⟩ := h.stream x hx
      rw [Function.update_of_ne hxid]
      refine ⟨t, (AList.lookup_insert_ne hxid).trans ht, htpath,
        htend.frame (p.disk.writeAll_other ?_ lines)⟩
      rw [htpath, hspath]
      exact fun he => hxid (runPath_inj os _ (h.valid x hx) (h.valid id hid) he)

/-- What a run in split mode has reached after some calls. -/
def Process.SplitAfter (p : Process) (os : Os) (env : Environ) (lg : Logger) (done : List Call) :
    Prop :=
  p.Split os env lg (lg.openedIds done) fun id => contentOf (linesOf id (lg.writtenLines done))

/-- A call in split mode appends its lines to the file of its id. -/
theorem Process.SplitAfter.log {done : List Call} (h : p.SplitAfter os env lg done)
    {c : Call} (hlevel : c.messageLevel ≠ LogLevel.STATUS.value)
    (hid : SplitId c.moduleName)
    (hopens : os.opens (runPath os env (toLower c.moduleName)) = true) :
    (p.log fl os order reader c).SplitAfter os env lg (done ++ [c]) := by
  rw [Process.log_filtered h.initialized h.enabled hlevel, Logger.passes_congr h.filter]
  by_cases hc : lg.passes c = true
  · rw [if_pos hc]
    have hopen := h.openSplitFile c.clock.file hid hopens fun hnew => by
      rw [lg.linesOf_of_not_opened hnew]
      rfl
    rw [← lg.openedIds_concat done hc] at hopen
    have hmem : c.moduleName ∈ lg.openedIds (done ++ [c]) := by
      rw [lg.openedIds_concat done hc]
      split
      · assumption
      · exact List.mem_append_right _ (List.mem_singleton_self _)
    obtain ⟨s, hs, _⟩ := hopen.stream _ hmem
    have hemit : p.emit os c = (p.openSplitFile os c.clock.file c.moduleName).writeSplit
        c.moduleName s c.lines := by
      simp only [emit, h.split, ite_true, hs]
    rw [hemit, SplitAfter]
    convert hopen.writeSplit hmem hs c.lines using 1
    funext id
    rw [lg.writtenLines_concat, linesOf_append, contentOf_append, lg.linesOf_call hc,
      Function.update_apply]
    split
    · rename_i he
      rw [he]
    · rw [List.append_nil]
  · have hc' := Bool.eq_false_iff.mpr hc
    rw [if_neg hc, SplitAfter, lg.openedIds_concat_of_not done hc', lg.writtenLines_concat,
      Logger.linesOfCall, if_neg hc, List.append_nil]
    exact h

/-- A run in split mode. -/
theorem Process.SplitAfter.logAll {done : List Call} (h : p.SplitAfter os env lg done)
    (calls : List Call)
    (hlevel : ∀ c ∈ calls, c.messageLevel ≠ LogLevel.STATUS.value)
    (hid : ∀ c ∈ calls, SplitId c.moduleName)
    (hopens : ∀ c ∈ calls, os.opens (runPath os env (toLower c.moduleName)) = true) :
    (p.logAll fl os order reader calls).SplitAfter os env lg (done ++ calls) := by
  induction calls generalizing p done with
  | nil =>
    rw [List.append_nil]
    exact h
  | cons c cs ih =>
    have hstep : (p.log fl os order reader c).SplitAfter os env lg (done ++ [c]) :=
      h.log (hlevel c (List.mem_cons_self ..)) (hid c (List.mem_cons_self ..))
        (hopens c (List.mem_cons_self ..))
    have hrun := ih hstep (fun d hd => hlevel d (List.mem_cons_of_mem _ hd))
      (fun d hd => hid d (List.mem_cons_of_mem _ hd))
      (fun d hd => hopens d (List.mem_cons_of_mem _ hd))
    rwa [List.append_assoc, List.singleton_append] at hrun

end Runs

/-! ## The two modes -/

/-- The same host with `split_logs_by_module` set in its configuration. -/
def Os.withSplit (os : Os) (split : Bool) : Os :=
  { os with readJson := fun path =>
      (os.readJson path).map fun tree => { tree with splitLogsByModule := some split } }

theorem configOf_withSplit (os : Os) (split : Bool) {dir : Text} {tree : ConfigTree}
    (h : configOf os dir = some tree) :
    configOf (os.withSplit split) dir = some { tree with splitLogsByModule := some split } := by
  obtain ⟨path, hpath, hread⟩ := Option.bind_eq_some_iff.mp h
  have hfiles : (os.withSplit split).fileExists = os.fileExists := rfl
  have hfind := findConfigFileFromPath_congr hfiles dir
  rw [configOf, hfind, hpath, Option.bind_some]
  simp only [Os.withSplit, hread, Option.map_some]

/-- A path is only read where a results directory is set. -/
theorem resultsDir_ne_nil {os : Os} {env : Environ} {tree : ConfigTree}
    (h : configOf os (resultsDir env) = some tree) : resultsDir env ≠ [] := by
  intro hnil
  rw [hnil, configOf, findConfigFileFromPath, if_pos rfl] at h
  cases h

section Modes

variable {os : Os} (order : HashOrder) (stamp : Timestamp) {env : Environ}
  (files : Text → Option Text) {tree : ConfigTree}

/-- The policies of the two modes differ in the mode. -/
theorem policyOf_withSplit (split : Bool) (hload : configOf os (resultsDir env) = some tree) :
    policyOf (os.withSplit split) order .fresh env =
      { policyOf os order .fresh env with splitLogsByModule := split } := by
  rw [policyOf_loaded os order env hload,
    policyOf_loaded (os.withSplit split) order env (configOf_withSplit os split hload)]
  rfl

theorem policyOf_enabled (hload : configOf os (resultsDir env) = some tree)
    (henabled : (tree.ewtsEnabled <|> tree.loggingEnabled).getD true = true) :
    (policyOf os order .fresh env).loggingEnabled = true := by
  rw [policyOf_loaded os order env hload]
  exact henabled

/-- Log files keep their directory and prefix in the exported environment. -/
theorem afterInit_paths (stem : Text) :
    resultsDir (afterInit os order stamp env files).env = resultsDir env ∧
      prependLogFilePrefix (afterInit os order stamp env files).env stem =
        prependLogFilePrefix env stem := by
  have hget : ∀ name ∈ [text "NGEN_RESULTS_DIR", text "NGEN_LOG_FILE_PREFIX"],
      getenv (afterInit os order stamp env files).env name = getenv env name := by
    have hnames : ∀ name ∈ [text "NGEN_RESULTS_DIR", text "NGEN_LOG_FILE_PREFIX"],
        ¬ text "_LOGLEVEL" <:+ name ∧
          name ∉ [text "EWTS_USE_NGEN_BRIDGE", text "EWTS_ENABLED", text "EWTS_RANK"] := by
      decide
    exact fun name hname => afterInit_getenv_other _ _ _ _ _ (hnames name hname).1
      (hnames name hname).2
  rw [resultsDir, hget _ (by simp), prependLogFilePrefix, hget _ (by simp)]
  exact ⟨rfl, rfl⟩

/-- The path of a stem, computed in the exported environment. -/
theorem afterInit_runPath (hdir : resultsDir env ≠ []) (stamp' : Timestamp) (stem : Text) :
    joinPath (resultsDir env) (logFileName os (afterInit os order stamp env files).env
      (resultsDir env) stamp' stem) = runPath os env stem := by
  rw [logFileName_run os _ hdir, (afterInit_paths order stamp files stem).2, runPath]

/-- In unified mode the log file is opened. -/
theorem setupLogFile_unified {p : Process} {lg : Logger} {dir path : Text}
    (hinit : p.initialized = true) (henabled : p.logger.loggingEnabled = true)
    (hsplit : p.logger.splitLogsByModule = false)
    (hfilter : p.logger.effectiveLevel = lg.effectiveLevel) (hdir : dir ≠ [])
    (hpath : joinPath dir (logFileName os p.env dir stamp (text "ngen")) = path)
    (hwhole : cStr path = path) (hopens : os.opens path = true) :
    (p.setupLogFile os stamp dir).Unified lg path [] := by
  have hlog : logDirOf p.env dir = dir := if_neg hdir
  have hsetup : p.setupLogFile os stamp dir =
      { p with
        disk := p.disk.openTrunc path
        logger := { p.logger with
          logFileDir := dir
          logFilePath := path
          logFile := some ⟨path, 0⟩ } } := by
    simp only [Process.setupLogFile, hlog, hdir, hsplit, Bool.false_eq_true, or_self, ite_false,
      hpath, openLog, hwhole, hopens, ite_true]
  rw [hsetup]
  exact ⟨hinit, henabled, hsplit, hfilter, _, rfl, rfl, p.disk.atEnd_openTrunc path⟩

/-- In split mode no file is opened yet. -/
theorem setupLogFile_split {p : Process} {lg : Logger} {dir : Text}
    (hinit : p.initialized = true) (henabled : p.logger.loggingEnabled = true)
    (hsplit : p.logger.splitLogsByModule = true)
    (hfilter : p.logger.effectiveLevel = lg.effectiveLevel) (hdir : dir ≠ [])
    (hpath : ∀ stamp' stem, joinPath dir (logFileName os p.env (resultsDir p.env) stamp' stem) =
      runPath os env stem)
    (hopened : p.disk.opened = []) (hclosed : p.splitLogFiles = ∅) :
    (p.setupLogFile os stamp dir).SplitAfter os env lg [] := by
  have hlog : logDirOf p.env dir = dir := if_neg hdir
  have hsetup : p.setupLogFile os stamp dir =
      { p with logger := { p.logger with logFileDir := dir, logFilePath := [] } } := by
    simp only [Process.setupLogFile, hlog, hsplit, or_true, ite_true]
  rw [hsetup]
  refine ⟨hinit, henabled, hsplit, hfilter, fun stamp' id => hpath stamp' _, ?_, hopened,
    fun id _ => ?_, ?_⟩
  · simp [Logger.openedIds]
  · exact hclosed ▸ AList.lookup_empty id
  · simp [Logger.openedIds]

/-- The mode has no influence on the filter. -/
theorem effectiveLevel_withSplit (lg : Logger) (split : Bool) :
    { lg with splitLogsByModule := split }.effectiveLevel = lg.effectiveLevel := rfl

/-- Initialisation in unified mode opens the one log file. -/
theorem afterInit_unified (hload : configOf os (resultsDir env) = some tree)
    (henabled : (tree.ewtsEnabled <|> tree.loggingEnabled).getD true = true)
    (hopens : os.opens (runPath os env (text "ngen")) = true) :
    (afterInit (os.withSplit false) order stamp env files).Unified (policyOf os order .fresh env)
      (runPath os env (text "ngen")) [] := by
  have hdir := resultsDir_ne_nil hload
  have hpolicy := policyOf_withSplit order false hload
  have hstem : ∀ c ∈ text "ngen", c ≠ 0 := by decide
  have hpath : joinPath (resultsDir env) (logFileName (os.withSplit false)
      (afterInit (os.withSplit false) order stamp env files).env (resultsDir env) stamp
        (text "ngen")) = runPath (os.withSplit false) env (text "ngen") :=
    afterInit_runPath order stamp files hdir stamp (text "ngen")
  rw [afterInit_env] at hpath
  rw [afterInit_eq]
  refine setupLogFile_unified stamp rfl ?_ ?_ ?_ hdir hpath (cStr_runPath os _ hstem) hopens
  · simp only [hpolicy]
    exact policyOf_enabled order hload henabled
  · simp only [hpolicy]
  · simp only [hpolicy]
    exact effectiveLevel_withSplit _ _

/-- Initialisation in split mode opens nothing. -/
theorem afterInit_split (hload : configOf os (resultsDir env) = some tree)
    (henabled : (tree.ewtsEnabled <|> tree.loggingEnabled).getD true = true) :
    (afterInit (os.withSplit true) order stamp env files).SplitAfter (os.withSplit true) env
      (policyOf os order .fresh env) [] := by
  have hdir := resultsDir_ne_nil hload
  have hpolicy := policyOf_withSplit order true hload
  have hpath : ∀ stamp' stem, joinPath (resultsDir env) (logFileName (os.withSplit true)
      (afterInit (os.withSplit true) order stamp env files).env
        (resultsDir (afterInit (os.withSplit true) order stamp env files).env) stamp' stem) =
      runPath (os.withSplit true) env stem := by
    intro stamp' stem
    rw [(afterInit_paths order stamp files stem).1, afterInit_runPath order stamp files hdir]
  simp only [afterInit_env] at hpath
  rw [afterInit_eq]
  refine setupLogFile_split stamp rfl ?_ ?_ ?_ hdir hpath rfl rfl
  · simp only [hpolicy]
    exact policyOf_enabled order hload henabled
  · simp only [hpolicy]
  · simp only [hpolicy]
    exact effectiveLevel_withSplit _ _

end Modes

section Partition

variable {F : Type} (fl : Floats F) (reader : Json.TreeReader) (os : Os) (order : HashOrder)
  (env : Environ) (files : Text → Option Text)

/-- The first call initialises the logger. -/
theorem logAll_start (c : Call) (cs : List Call) :
    (Process.start env files).logAll fl os order reader (c :: cs) =
      (afterInit os order c.clock.file env files).logAll fl os order reader (c :: cs) := by
  have hinit : (afterInit os order c.clock.file env files).initialized = true := by
    rw [afterInit_eq, Process.setupLogFile]
    split <;> rfl
  have honce : (afterInit os order c.clock.file env files).initIfNeeded os order c.clock.file =
      afterInit os order c.clock.file env files := by
    rw [Process.initIfNeeded, if_pos hinit]
  have hlog : (Process.start env files).log fl os order reader c =
      (afterInit os order c.clock.file env files).log fl os order reader c := by
    rw [Process.log, Process.log, honce]
    rfl
  rw [Process.logAll, Process.logAll, hlog]

/-- With files for the modules the same calls write the same lines: the file of an id holds
the lines of its calls in order, every line is in one file, and each file is opened once,
by the first call of its id that passes the filter. -/
theorem split_partitions_unified {tree : ConfigTree}
    (hload : configOf os (resultsDir env) = some tree)
    (henabled : (tree.ewtsEnabled <|> tree.loggingEnabled).getD true = true) (calls : List Call)
    (hlevel : ∀ c ∈ calls, c.messageLevel ≠ LogLevel.STATUS.value)
    (hid : ∀ c ∈ calls, SplitId c.moduleName)
    (hopens : os.opens (runPath os env (text "ngen")) = true ∧
      ∀ c ∈ calls, os.opens (runPath os env (toLower c.moduleName)) = true) :
    let unified := (Process.start env files).logAll fl (os.withSplit false) order reader calls
    let split := (Process.start env files).logAll fl (os.withSplit true) order reader calls
    let lines := (policyOf os order .fresh env).writtenLines calls
    let ids := (policyOf os order .fresh env).openedIds calls
    (calls ≠ [] → unified.disk.files (runPath os env (text "ngen")) = some (contentOf lines)) ∧
    (∀ id ∈ ids, split.disk.files (runPath os env (toLower id)) =
      some (contentOf (linesOf id lines))) ∧
    lines.Perm (ids.flatMap fun id => linesOf id lines) ∧
    split.disk.opened = ids.map (fun id => runPath os env (toLower id)) ∧
    (ids.map fun id => runPath os env (toLower id)).Nodup := by
  intro unified split lines ids
  have hnodup : ids.Nodup := nodup_eraseDups _
  have hvalid : ∀ id ∈ ids, SplitId id := by
    intro id hmem
    obtain ⟨c, hc, rfl⟩ := List.mem_map.mp (List.mem_eraseDups.mp hmem)
    exact hid c (List.mem_filter.mp hc).1
  refine ⟨fun hne => ?_, ?_⟩
  · cases calls with
    | nil => exact absurd rfl hne
    | cons c cs =>
      have hrun : unified.Unified (policyOf os order .fresh env) (runPath os env (text "ngen"))
          ([] ++ contentOf lines) := by
        have hinit := afterInit_unified order c.clock.file files hload henabled hopens.1
        rw [show unified = _ from logAll_start fl reader _ order env files c cs]
        exact hinit.logAll _ hlevel
      obtain ⟨s, _, hpath, hend⟩ := hrun.stream
      rw [← hpath]
      exact hend.file
  · have hrun : split.disk.opened = (ids.map fun id => runPath os env (toLower id)) ∧
        ∀ id ∈ ids, ∃ s : OutStream, s.path = runPath os env (toLower id) ∧
          s.AtEnd split.disk (contentOf (linesOf id lines)) := by
      cases calls with
      | nil => exact ⟨rfl, fun id hmem => absurd hmem (by simp [ids, Logger.openedIds])⟩
      | cons c cs =>
        have hsplit : split.SplitAfter (os.withSplit true) env (policyOf os order .fresh env)
            ([] ++ c :: cs) := by
          have hinit := afterInit_split order c.clock.file files hload henabled
          rw [show split = _ from logAll_start fl reader _ order env files c cs]
          exact hinit.logAll _ hlevel hid hopens.2
        refine ⟨hsplit.opened, fun id hmem => ?_⟩
        obtain ⟨s, _, hpath, hend⟩ := hsplit.stream id hmem
        exact ⟨s, hpath, hend⟩
    refine ⟨fun id hmem => ?_, ?_, hrun.1, ?_⟩
    · obtain ⟨s, hpath, hend⟩ := hrun.2 id hmem
      rw [← hpath]
      exact hend.file
    · exact perm_flatMap_filter Prod.fst hnodup fun line hline => Logger.mem_openedIds _ hline
    · exact hnodup.map_on fun a ha b hb h => runPath_inj os _ (hvalid a ha) (hvalid b hb) h

end Partition

/-- A host on which two modules can be split. -/
private def splitTree : ConfigTree := ⟨none, none, none, some []⟩

private theorem configOf_split : configOf (levelsOs []) (resultsDir runEnv) = some splitTree :=
  configOf_levelsOs []

/-- Three calls of two modules, one of them below its threshold. -/
private def splitCalls : List Call :=
  [⟨text "PET", 20, text "one\ntwo", default⟩, ⟨text "SFT", 40, text "three", default⟩,
    ⟨text "PET", 10, text "four", default⟩]

theorem split_partitions_unified_pet :
    let split := (Process.start runEnv fun _ => none).logAll SampleFloat.floats
      ((levelsOs []).withSplit true) insertionOrder Json.TreeReader.flat splitCalls
    let lines := (policyOf (levelsOs []) insertionOrder .fresh runEnv).writtenLines splitCalls
    split.disk.files (text "/run/pet.log") = some (contentOf (linesOf (text "PET") lines)) ∧
      split.disk.opened = [text "/run/pet.log", text "/run/sft.log"] := by
  intro split lines
  obtain ⟨_, hfile, _, hopened, _⟩ := split_partitions_unified SampleFloat.floats
    Json.TreeReader.flat (levelsOs []) insertionOrder runEnv (fun _ => none) configOf_split rfl
    splitCalls (by decide) (by unfold SplitId; decide) ⟨rfl, fun _ _ => rfl⟩
  have hids : (policyOf (levelsOs []) insertionOrder .fresh runEnv).openedIds splitCalls =
      [text "PET", text "SFT"] := by
    rw [policyOf_loaded _ _ _ configOf_split]
    decide
  have hpaths : [text "PET", text "SFT"].map
      (fun id => runPath (levelsOs []) runEnv (toLower id)) =
        [text "/run/pet.log", text "/run/sft.log"] := by
    decide
  rw [hids] at hfile hopened
  refine ⟨?_, hopened.trans hpaths⟩
  have hpet := hfile (text "PET") (by simp)
  rwa [show runPath (levelsOs []) runEnv (toLower (text "PET")) = text "/run/pet.log" by
    decide] at hpet

/-- Ids that hold a NUL, cut by `c_str`. -/
private def nulCalls : List Call :=
  [⟨text "A\x00B", 20, text "one", default⟩, ⟨text "A\x00C", 20, text "two", default⟩]

/-- Two ids that agree up to a NUL share a file, which is truncated twice and keeps nothing
of the first one. -/
theorem nul_ids_collide :
    let split := (Process.start runEnv fun _ => none).logAll SampleFloat.floats
      ((levelsOs []).withSplit true) insertionOrder Json.TreeReader.flat nulCalls
    let lines := (policyOf (levelsOs []) insertionOrder .fresh runEnv).writtenLines nulCalls
    cStr (runPath (levelsOs []) runEnv (toLower (text "A\x00B"))) = text "/run/a" ∧
    linesOf (text "A\x00B") lines ≠ [] ∧
    split.disk.opened = [text "/run/a", text "/run/a"] ∧
    split.disk.files (text "/run/a") = some (contentOf (linesOf (text "A\x00C") lines)) := by
  have hload : configOf ((levelsOs []).withSplit true) (resultsDir runEnv) =
      some { splitTree with splitLogsByModule := some true } :=
    configOf_withSplit _ true configOf_split
  rw [nulCalls, logAll_start, afterInit_eq, policyOf_loaded _ _ _ hload,
    policyOf_loaded _ _ _ configOf_split]
  decide

end Ewts.Ngen
