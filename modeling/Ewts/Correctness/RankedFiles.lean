import Ewts.Core.Search
import Ewts.Correctness.Isolation
import Ewts.Correctness.SplitMode

/-!
# Files of MPI ranks

Every rank opens its own files, and opens them with truncation. A file name is a stem, a
rank label and perhaps a stamp; a stem may hold the separators that stand between them.
-/

namespace Ewts

namespace Ngen

/-! ## The streams of ngen -/

/-- What a process writes to a file. -/
inductive Stream where
  | payload
  | unified
  | split (id : Text)

/-- The stem of a stream's file name. -/
def Stream.stem : Stream → Text
  | payload => text "ngen_payload"
  | unified => text "ngen"
  | split id => toLower id

/-- The streams of a mode; ids of registered modules are short and in upper case. -/
def Stream.InMode (splitLogsByModule : Bool) : Stream → Prop
  | payload => True
  | unified => splitLogsByModule = false
  | split id => splitLogsByModule = true ∧ id.length ≤ 8 ∧
      ∀ c ∈ id, (0x41 ≤ c.val ∧ c.val ≤ 0x5A) ∨ c.isDigit = true ∨ c = ch '_'

/-- The path of a stream. -/
def Stream.path (os : Os) (env : Environ) (logFileDir : Text) (stamp : Timestamp) (s : Stream) :
    Text :=
  joinPath logFileDir (logFileName os env (resultsDir env) stamp s.stem)

/-- `SetupLogFile` builds the path of the unified log. -/
theorem path_unified (p : Process) (os : Os) (stamp : Timestamp)
    (hmode : p.logger.splitLogsByModule = false) (hdir : logDirOf p.env (resultsDir p.env) ≠ []) :
    (p.setupLogFile os stamp (resultsDir p.env)).logger.logFilePath =
      Stream.unified.path os p.env (logDirOf p.env (resultsDir p.env)) stamp := by
  have hcond : ¬ (logDirOf p.env (resultsDir p.env) = [] ∨ p.logger.splitLogsByModule = true) := by
    rw [hmode]
    simpa using hdir
  unfold Process.setupLogFile
  rw [if_neg hcond]
  rfl

/-- It sets the directory, and leaves the mode and the environment alone. -/
theorem setupLogFile_frame (p : Process) (os : Os) (stamp : Timestamp) (dir : Text) :
    (p.setupLogFile os stamp dir).logger.logFileDir = logDirOf p.env dir ∧
      (p.setupLogFile os stamp dir).logger.splitLogsByModule = p.logger.splitLogsByModule ∧
      (p.setupLogFile os stamp dir).env = p.env := by
  unfold Process.setupLogFile
  split <;> exact ⟨rfl, rfl, rfl⟩

/-- Split mode builds the path of an id. -/
theorem path_split (p : Process) (os : Os) (stamp : Timestamp) (id : Text) :
    p.splitPath os stamp id = (Stream.split id).path os p.env p.logger.logFileDir stamp :=
  rfl

/-- `OpenPayloadFileIfNeeded` builds the path of the payload log. -/
theorem path_payload (p : Process) (os : Os) (order : HashOrder) (clock : Clock)
    (hinit : p.initialized = true) (hclosed : p.logger.payloadFile = none)
    (henabled : p.logger.loggingEnabled = true) (hdir : p.logger.logFileDir ≠ []) :
    (p.openPayloadFileIfNeeded os order clock).logger.payloadFilePath =
      Stream.payload.path os p.env p.logger.logFileDir clock.file := by
  have hsame : p.initIfNeeded os order clock.file = p := by
    rw [Process.initIfNeeded, if_pos hinit]
  unfold Process.openPayloadFileIfNeeded
  simp only [hsame, hclosed, henabled, hdir, Option.isSome_none, Bool.false_eq_true, or_false,
    Bool.true_eq_false, ite_false]
  rfl

/-! ## Cutting a file name -/

/-- The label of a rank. -/
def rankLabel : Text := text "_mpi_process_"

/-- No shift of the label meets it when a digit follows. -/
theorem rankLabel_no_shift {b : Text} (hb : ∃ d r, b = d :: r ∧ d.isDigit = true) (k : Nat)
    (hpos : 0 < k) (hk : k < rankLabel.length) : ¬ rankLabel <+: rankLabel.drop k ++ b := by
  obtain ⟨d, r, rfl, hd⟩ := hb
  rintro ⟨t, ht⟩
  have hlen : rankLabel.length = 13 := rfl
  by_cases hlast : k = 12
  · -- Only the last underscore is also the first one; a letter follows that.
    subst hlast
    have hletter : ch 'm' = d := (List.cons.inj (List.cons.inj ht).2).1
    subst hletter
    exact absurd hd (by decide)
  · have htwo := congrArg (List.take 2) ht
    rw [List.take_append_of_le_length (by omega),
      List.take_append_of_le_length (by rw [List.length_drop]; omega)] at htwo
    have hshift : ∀ k < 12, 0 < k → rankLabel.take 2 ≠ (rankLabel.drop k).take 2 := by decide
    exact hshift k (by omega) hpos htwo

/-- What follows the rank in a file name. -/
def rankEnd (dir : Text) (stamp : Timestamp) : Text := tsPart dir stamp ++ text ".log"

theorem rankEnd_no_digit (dir : Text) (stamp : Timestamp) :
    ∀ c ∈ (rankEnd dir stamp).head?, c.isDigit = false := by
  unfold rankEnd tsPart
  split
  · rintro c ⟨⟩
    rfl
  · rintro c ⟨⟩
    rfl

/-- A short stem and its rank are found again in the file name. -/
theorem stem_rank_inj {stem stem' e e' : Text} {r r' : Nat} (hstem : stem.length ≤ 12)
    (hstem' : stem'.length ≤ 12) (he : ∀ c ∈ e.head?, c.isDigit = false)
    (he' : ∀ c ∈ e'.head?, c.isDigit = false)
    (h : stem ++ rankLabel ++ (decimal r ++ e) = stem' ++ rankLabel ++ (decimal r' ++ e')) :
    stem = stem' ∧ r = r' := by
  have hdigit : ∀ (n : Nat) (t : Text), ∃ d l, decimal n ++ t = d :: l ∧ d.isDigit = true := by
    intro n t
    obtain ⟨d, l, hdl⟩ := List.exists_cons_of_ne_nil (decimal_ne_nil n)
    refine ⟨d, l ++ t, by rw [hdl, List.cons_append], ?_⟩
    apply isDigit_of_mem_decimal (n := n)
    rw [hdl]
    exact List.mem_cons_self ..
  have hlen : rankLabel.length = 13 := rfl
  obtain ⟨hs, hrest⟩ := append_label_inj (rankLabel_no_shift (hdigit r e))
    (rankLabel_no_shift (hdigit r' e')) (by omega) (by omega) h
  exact ⟨hs, (decimal_append_inj he he' hrest).1⟩

/-! ## Stems -/

theorem Stream.length_stem {mode : Bool} {s : Stream} (h : s.InMode mode) :
    s.stem.length ≤ 12 := by
  cases s with
  | payload => exact le_rfl
  | unified => decide
  | split id =>
    have hlen := h.2.1
    rw [stem, toLower, List.length_map]
    omega

/-- The streams of a mode have different stems. -/
theorem Stream.stem_inj {mode : Bool} {s s' : Stream} (h : s.InMode mode) (h' : s'.InMode mode)
    (hstem : s.stem = s'.stem) : s = s' := by
  have hpayload : ∀ id : Text, id.length ≤ 8 → toLower id ≠ text "ngen_payload" := by
    intro id hid heq
    have hlen := congrArg List.length heq
    rw [toLower, List.length_map] at hlen
    change id.length = 12 at hlen
    omega
  have hsplit : ∀ id : Text, (Stream.split id).InMode mode → SplitId id := by
    intro id hid c hc
    have hlower : ch '_' ≠ 0 ∧ (ch '_').val = 0x5F ∧ (ch '/').val = 0x2F := by decide
    rcases hid.2.2 c hc with hupper | hdigit | rfl
    · refine ⟨by omega, by omega, ?_, ?_⟩
      · rintro rfl
        omega
      · rintro rfl
        exact absurd hupper.1 (by decide)
    · simp only [CodePoint.isDigit, Bool.and_eq_true, decide_eq_true_eq] at hdigit
      refine ⟨by omega, by omega, ?_, ?_⟩
      · rintro rfl
        omega
      · rintro rfl
        exact absurd hdigit.1 (by decide)
    · decide
  cases s with
  | payload =>
    cases s' with
    | payload => rfl
    | unified => exact absurd hstem (by decide)
    | split id' => exact absurd hstem.symm (hpayload id' h'.2.1)
  | unified =>
    cases s' with
    | payload => exact absurd hstem (by decide)
    | unified => rfl
    | split id' => exact absurd (h.symm.trans h'.1) Bool.false_ne_true
  | split id =>
    cases s' with
    | payload => exact absurd hstem (hpayload id h.2.1)
    | unified => exact absurd (h'.symm.trans h.1) Bool.false_ne_true
    | split id' => rw [toLower_inj (hsplit id h) (hsplit id' h') hstem]

/-! ## Paths -/

theorem joinPath_inj {dir a b : Text} (ha : a ≠ []) (hb : b ≠ [])
    (h : joinPath dir a = joinPath dir b) : a = b := by
  obtain ⟨pre, _, hjoin⟩ := joinPath_frame dir
  rw [hjoin a ha, hjoin b hb] at h
  exact List.append_cancel_left h

/-- The parts of a file name under MPI. -/
theorem logFileName_ranked {os : Os} {r : Nat} (hr : os.mpiRank = some r) (env : Environ)
    (dir : Text) (stamp : Timestamp) (stem : Text) : logFileName os env dir stamp stem =
      filePrefix env ++ (stem ++ rankLabel ++ (decimal r ++ rankEnd dir stamp)) := by
  rw [logFileName, prependLogFilePrefix_eq, rankPart, hr, rankEnd, rankLabel]
  simp only [List.append_assoc]

/-- Under one prefix different ranks or streams have different paths, whatever the stamps. -/
theorem Stream.path_ne (logFileDir : Text) {mode : Bool} {os os' : Os} {env env' : Environ}
    (stamp stamp' : Timestamp) {r r' : Nat} {s s' : Stream}
    (hpre : trim (getenv env (text "NGEN_LOG_FILE_PREFIX")) =
      trim (getenv env' (text "NGEN_LOG_FILE_PREFIX")))
    (hr : os.mpiRank = some r) (hr' : os'.mpiRank = some r') (hs : s.InMode mode)
    (hs' : s'.InMode mode) (hne : (r, s) ≠ (r', s')) :
    s.path os env logFileDir stamp ≠ s'.path os' env' logFileDir stamp' := by
  intro h
  apply hne
  have hsame : filePrefix env = filePrefix env' := by
    unfold filePrefix
    rw [hpre]
  have hnonempty : ∀ (os : Os) (env : Environ) (dir : Text) (stamp : Timestamp) (stem : Text),
      logFileName os env dir stamp stem ≠ [] := by
    intro os env dir stamp stem hnil
    have hlog := (List.append_eq_nil_iff.mp hnil).2
    revert hlog
    decide
  have hname := joinPath_inj (hnonempty os env _ _ _) (hnonempty os' env' _ _ _) h
  rw [logFileName_ranked hr, logFileName_ranked hr', hsame] at hname
  obtain ⟨hstem, hrank⟩ := stem_rank_inj (Stream.length_stem hs) (Stream.length_stem hs')
    (rankEnd_no_digit _ _) (rankEnd_no_digit _ _) (List.append_cancel_left hname)
  rw [hrank, Stream.stem_inj hs hs' hstem]

/-! ## The paths that are built -/

/-- A process builds a path for a stream: `InitIfNeeded` that of the unified log, a call in split
mode that of its module, and the first payload that of the payload log. -/
inductive Process.Builds (os : Os) : Process → Stream → Text → Prop
  | unified (order : HashOrder) (stamp : Timestamp) (env : Environ) (files : Text → Option Text)
      (hmode : (afterInit os order stamp env files).logger.splitLogsByModule = false)
      (hdir : (afterInit os order stamp env files).logger.logFileDir ≠ []) :
      Builds os (afterInit os order stamp env files) .unified
        (afterInit os order stamp env files).logger.logFilePath
  | split {p : Process} (hmode : p.logger.splitLogsByModule = true) (stamp : Timestamp)
      (id : Text) : Builds os p (.split id) (p.splitPath os stamp id)
  | payload {p : Process} (hinit : p.initialized = true) (hclosed : p.logger.payloadFile = none)
      (henabled : p.logger.loggingEnabled = true) (hdir : p.logger.logFileDir ≠ [])
      (order : HashOrder) (clock : Clock) : Builds os p .payload
        (p.openPayloadFileIfNeeded os order clock).logger.payloadFilePath

/-- Every path that is built has the form of its stream. -/
theorem Process.Builds.path_eq {os : Os} {p : Process} {s : Stream} {path : Text}
    (h : p.Builds os s path) :
    ∃ stamp, path = s.path os p.env p.logger.logFileDir stamp := by
  cases h with
  | unified order stamp env files hmode hdir =>
    refine ⟨stamp, ?_⟩
    have hresults : resultsDir (afterInit os order stamp env files).env = resultsDir env :=
      (afterInit_paths order stamp files []).1
    rw [afterInit_env] at hresults
    rw [afterInit_eq] at hmode hdir ⊢
    rw [← hresults] at hmode hdir ⊢
    obtain ⟨hlogDir, hsplit, henv⟩ := setupLogFile_frame
      { Process.start env files with
        initialized := true
        logger := policyOf os order .fresh env
        env := setEnvVars order (policyOf os order .fresh env) (envAtRead os order .fresh env) }
      os stamp _
    rw [hsplit] at hmode
    rw [hlogDir] at hdir ⊢
    rw [henv]
    exact path_unified _ os stamp hmode hdir
  | split hmode stamp id => exact ⟨stamp, path_split p os stamp id⟩
  | payload hinit hclosed henabled hdir order clock =>
    exact ⟨clock.file, path_payload p os order clock hinit hclosed henabled hdir⟩

/-- Under one directory and prefix, and in one mode, the paths that processes of MPI build for
different pairs of a rank and a stream differ, whatever the stamps. -/
theorem stream_paths_differ {p p' : Process} {os os' : Os} {r r' : Nat} {s s' : Stream}
    {path path' : Text} (h : p.Builds os s path) (h' : p'.Builds os' s' path')
    (hdir : p.logger.logFileDir = p'.logger.logFileDir)
    (hmode : p.logger.splitLogsByModule = p'.logger.splitLogsByModule)
    (hpre : trim (getenv p.env (text "NGEN_LOG_FILE_PREFIX")) =
      trim (getenv p'.env (text "NGEN_LOG_FILE_PREFIX")))
    (hr : os.mpiRank = some r) (hr' : os'.mpiRank = some r')
    (hs : s.InMode p.logger.splitLogsByModule) (hs' : s'.InMode p'.logger.splitLogsByModule)
    (hne : (r, s) ≠ (r', s')) : path ≠ path' := by
  obtain ⟨stamp, rfl⟩ := h.path_eq
  obtain ⟨stamp', rfl⟩ := h'.path_eq
  rw [← hdir]
  rw [← hmode] at hs'
  exact Stream.path_ne _ stamp stamp' hpre hr hr' hs hs' hne

/-- The host of a rank, in split mode. -/
private def rankOs (r : Nat) : Os := { levelsOs [] with mpiRank := some r }.withSplit true

/-- A rank after its initialisation. -/
private def rankProcess (r : Nat) : Process :=
  afterInit (rankOs r) insertionOrder default runEnv fun _ => none

private theorem rankProcess_eq (r : Nat) : rankProcess r = Process.setupLogFile
    { Process.start runEnv fun _ => none with
      initialized := true
      logger := Logger.fresh.load (envAtRead (rankOs r) insertionOrder .fresh runEnv)
        ⟨none, none, some true, some []⟩
      env := setEnvVars insertionOrder
        (Logger.fresh.load (envAtRead (rankOs r) insertionOrder .fresh runEnv)
          ⟨none, none, some true, some []⟩) (envAtRead (rankOs r) insertionOrder .fresh runEnv) }
    (rankOs r) default (resultsDir runEnv) := by
  have hload : configOf (rankOs r) (resultsDir runEnv) = some ⟨none, none, some true, some []⟩ :=
    configOf_here (by decide) rfl
  rw [rankProcess, afterInit_eq, policyOf_loaded _ _ _ hload]

/-- The file of an id that ends like the rank label, and the payload log of another rank. -/
theorem stream_paths_differ_mpi :
    (rankProcess 1).splitPath (rankOs 1) default (text "N_MPI") ≠
      ((rankProcess 11).openPayloadFileIfNeeded (rankOs 11) insertionOrder
        default).logger.payloadFilePath := by
  have hmode : ∀ r, (rankProcess r).logger.splitLogsByModule = true := by
    intro r
    rw [rankProcess_eq]
    rfl
  have hdir : ∀ r, (rankProcess r).logger.logFileDir = text "/run" := by
    intro r
    rw [rankProcess_eq]
    rfl
  have hstart : ∀ r, getenv (rankProcess r).env (text "NGEN_LOG_FILE_PREFIX") =
      getenv runEnv (text "NGEN_LOG_FILE_PREFIX") :=
    fun r => afterInit_getenv_other _ _ _ _ _ (by decide) (by decide)
  have hsplit : (rankProcess 1).Builds (rankOs 1) (.split (text "N_MPI")) _ :=
    .split (hmode 1) default (text "N_MPI")
  have hclosed : (rankProcess 11).initialized = true ∧
      (rankProcess 11).logger.payloadFile = none ∧
      (rankProcess 11).logger.loggingEnabled = true := by
    rw [rankProcess_eq]
    exact ⟨rfl, rfl, rfl⟩
  have hpayload : (rankProcess 11).Builds (rankOs 11) .payload _ :=
    .payload hclosed.1 hclosed.2.1 hclosed.2.2 (by rw [hdir]; decide) insertionOrder default
  refine stream_paths_differ hsplit hpayload ?_ ?_ ?_ rfl rfl ?_ trivial (by simp)
  · rw [hdir, hdir]
  · rw [hmode, hmode]
  · rw [hstart, hstart]
  · rw [hmode]
    exact ⟨rfl, by decide, by decide⟩

end Ngen

namespace Python

/-! ## The files of a standalone logger -/

/-- The payload file of a log file with the usual suffix. -/
theorem payloadLogPath_log {root : Text} {parts : List Text} {stem : Text} (hne : stem ≠ [])
    (hslash : ch '/' ∉ stem) : payloadLogPath ⟨root, parts ++ [stem ++ text ".log"]⟩ =
      some ⟨root, parts ++ [stem ++ text "_payload" ++ text ".log"]⟩ := by
  have hname : Path.name ⟨root, parts ++ [stem ++ text ".log"]⟩ = stem ++ text ".log" := by
    rw [Path.name, List.getLast?_concat, Option.getD_some]
  have hhead : (stem ++ text ".log").rdropWhile (· ≠ ch '.') = stem ++ [ch '.'] := by
    have hlog : stem ++ text ".log" = stem ++ [ch '.'] ++ [ch 'l'] ++ [ch 'o'] ++ [ch 'g'] := by
      simp only [List.append_assoc]
      rfl
    rw [hlog, List.rdropWhile_concat_pos _ _ _ (by decide),
      List.rdropWhile_concat_pos _ _ _ (by decide), List.rdropWhile_concat_pos _ _ _ (by decide),
      List.rdropWhile_concat_neg _ _ _ (by decide)]
  have hpos := List.length_pos_iff.mpr hne
  have hlen : (text ".log").length = 4 := rfl
  have hstem : Path.stem ⟨root, parts ++ [stem ++ text ".log"]⟩ = stem := by
    rw [Path.stem, hname, Path.beforeSuffix]
    simp only [hhead]
    rw [if_pos (by simp only [List.length_append, List.length_singleton]; omega),
      Option.getD_some, List.dropLast_concat]
  have hsuffix : Path.suffix ⟨root, parts ++ [stem ++ text ".log"]⟩ = text ".log" := by
    rw [Path.suffix, hstem, hname, List.drop_left]
  have hvalid : ¬ (stem ++ text ".log" = [] ∨ stem ++ text "_payload" ++ text ".log" = [] ∨
      ch '/' ∈ stem ++ text "_payload" ++ text ".log" ∨
        stem ++ text "_payload" ++ text ".log" = text ".") := by
    have hparts : ch '/' ∉ text "_payload" ∧ ch '/' ∉ text ".log" := by decide
    rintro (hnil | hnil | hmem | hdot)
    · exact hne (List.append_eq_nil_iff.mp hnil).1
    · exact hne (List.append_eq_nil_iff.mp (List.append_eq_nil_iff.mp hnil).1).1
    · simp only [List.mem_append, hslash, hparts, or_self] at hmem
    · have hdot' := congrArg List.length hdot
      simp only [List.length_append] at hdot'
      change _ = 1 at hdot'
      omega
  rw [payloadLogPath, hstem, hsuffix, Path.withName, hname, if_neg hvalid, List.dropLast_concat]

/-- What a file name says of the rank and the start of a process. -/
def rankTail (rank : Nat) (now : Timestamp) : Text :=
  text "_rank_" ++ (decimal rank ++ ch '_' :: now.compact)

theorem rankTail_no_slash (rank : Nat) (now : Timestamp) : ch '/' ∉ rankTail rank now := by
  have hdigit : (ch '/').isDigit = false := rfl
  intro hmem
  rcases List.mem_append.mp hmem with hmem | hmem
  · exact absurd hmem (by decide)
  · rcases List.mem_append.mp hmem with hmem | hmem
    · rw [isDigit_of_mem_decimal hmem] at hdigit
      cases hdigit
    · rcases List.mem_cons.mp hmem with hmem | hmem
      · exact absurd hmem (by decide)
      · rcases now.mem_compact hmem with hc | hc
        · rw [hc] at hdigit
          cases hdigit
        · exact absurd hc (by decide)

/-- Different ranks give different tails, whatever follows them. -/
theorem rankTail_ne {rank rank' : Nat} (h : rank ≠ rank') (now now' : Timestamp) (a b : Text) :
    rankTail rank now ++ a ≠ rankTail rank' now' ++ b := by
  intro heq
  unfold rankTail at heq
  simp only [List.append_assoc, List.append_cancel_left_eq] at heq
  apply h
  exact (decimal_append_inj (by rintro c ⟨⟩; rfl) (by rintro c ⟨⟩; rfl) heq).1

/-- So do the paths with these tails at the same place. -/
theorem rankedPath_ne {rank rank' : Nat} (h : rank ≠ rank') (now now' : Timestamp)
    (root last : Text) (parts : List Text) (a b : Text) :
    Path.str ⟨root, parts ++ [last ++ rankTail rank now ++ a]⟩ ≠
      Path.str ⟨root, parts ++ [last ++ rankTail rank' now' ++ b]⟩ := by
  intro heq
  rw [Path.str_of_parts (by simp), Path.str_of_parts (by simp)] at heq
  refine Path.intercalate_concat_ne parts ?_ (List.append_cancel_left heq)
  intro hsame
  rw [List.append_assoc, List.append_assoc, List.append_cancel_left_eq] at hsame
  exact rankTail_ne h now now' a b hsame

/-- The file name of a rank and that of its payload, in a directory that the id may extend. -/
theorem makeLogPath_ranked (u : Unicode) (logDir id : Text) {logFileName : Option Text}
    (hname : logFileName = none ∨ logFileName = some []) :
    ∃ (root : Text) (parts : List Text) (last : Text), ∀ (now : Timestamp) (rank : Nat),
      let stem := last ++ rankTail rank now
      makeLogPath u now logDir id rank logFileName = ⟨root, parts ++ [stem ++ text ".log"]⟩ ∧
        payloadLogPath (makeLogPath u now logDir id rank logFileName) =
          some ⟨root, parts ++ [stem ++ text "_payload" ++ text ".log"]⟩ := by
  obtain ⟨root, parts, last, hlast, h⟩ := Path.join_parse_append (Path.parse logDir)
    (u.upper (if id = [] then text "UNKNOWN" else id))
  refine ⟨root, parts, last, fun now rank => ?_⟩
  intro stem
  have hlog : ch '/' ∉ rankTail rank now ++ text ".log" := by
    intro hmem
    rcases List.mem_append.mp hmem with hmem | hmem
    · exact rankTail_no_slash rank now hmem
    · exact absurd hmem (by decide)
  have hfile : u.upper (if id = [] then text "UNKNOWN" else id) ++
      (text "_rank_" ++ decimal rank) ++ ch '_' :: now.compact ++ text ".log" =
        u.upper (if id = [] then text "UNKNOWN" else id) ++ (rankTail rank now ++ text ".log") := by
    unfold rankTail
    simp only [List.append_assoc, List.cons_append]
  have hrank : (0 : Int) ≤ (rank : Int) := Int.natCast_nonneg rank
  have hpath : makeLogPath u now logDir id rank logFileName =
      ⟨root, parts ++ [stem ++ text ".log"]⟩ := by
    have hjoin := h (rankTail rank now ++ text ".log") hlog (by
      rw [List.length_append]
      exact Nat.le_add_left_of_le (by decide))
    rw [← hfile, ← List.append_assoc last] at hjoin
    unfold makeLogPath
    rcases hname with rfl | rfl
    · simpa only [if_pos hrank, Int.toNat_natCast] using hjoin
    · simpa only [if_pos hrank, Int.toNat_natCast] using hjoin
  refine ⟨hpath, ?_⟩
  rw [hpath]
  apply payloadLogPath_log
  · intro hnil
    have htail := (List.append_eq_nil_iff.mp hnil).2
    cases htail
  · intro hmem
    rcases List.mem_append.mp hmem with hmem | hmem
    · exact hlast hmem
    · exact rankTail_no_slash rank now hmem

/-- A name of the caller is the file name, whatever the rank and the time. -/
theorem makeLogPath_named (u : Unicode) (logDir id : Text) {logFileName : Option Text}
    (hname : ¬ (logFileName = none ∨ logFileName = some [])) (now now' : Timestamp)
    (rank rank' : Int) : makeLogPath u now logDir id rank logFileName =
      makeLogPath u now' logDir id rank' logFileName := by
  cases logFileName with
  | none => exact absurd (Or.inl rfl) hname
  | some name =>
    cases name with
    | nil => exact absurd (Or.inr rfl) hname
    | cons c name => rfl

/-- The files of an object. -/
def EwtsObject.paths (o : EwtsObject) : List Text := o.logPath.toList ++ o.payloadLogPath.toList

/-- A started logger has no files, or those that its configuration names. -/
theorem EwtsObject.Started.paths_cases {u : Unicode} {host : Host} {id : Text} {cfg : EwtsConfig}
    {o : EwtsObject} (ho : Started u host id cfg o) : o.paths = [] ∨
      ∃ logDir payloadPath, cfg.logDir = some logDir ∧
        Python.payloadLogPath (makeLogPath u host.now logDir id cfg.mpiRank cfg.logFileName) =
          some payloadPath ∧
        o.paths = [(makeLogPath u host.now logDir id cfg.mpiRank cfg.logFileName).str,
          payloadPath.str] := by
  cases ho with
  | disabled | bridged | stdout => exact Or.inl rfl
  | files _ _ hdir hpayload => exact Or.inr ⟨_, _, hdir, hpayload, rfl⟩

section Ranks

open Registry

variable {u : Unicode} {id : Text} {host host' : Host} {overrides overrides' : Overrides}
  {cfg cfg' : EwtsConfig} {o o' : EwtsObject} {r r' : Nat}

/-- The rank of a configuration is the one of the environment. -/
theorem StartedFrom.mpiRank (h : StartedFrom u host overrides id cfg o)
    (hr : u.int (stripped host.process.view (text "EWTS_RANK")) = some (r : Int)) :
    cfg.mpiRank = r := by
  obtain ⟨_, process, hload, _⟩ := h
  have hcfg : configIn u host.home overrides id host.process.view = some cfg := by
    rw [← (readsView_loadConfig u host.home overrides id).value, hload]
  unfold configIn at hcfg
  obtain ⟨dir, _, rfl⟩ := Option.map_eq_some_iff.mp hcfg
  have hrank : (u.int (stripped host.process.view (text "EWTS_RANK"))).getD (-1) = (r : Int) := by
    rw [hr, Option.getD_some]
  cases overrides (u.upper (u.upper id)) <;> exact hrank

/-- Loggers of one id and directory in processes of different ranks share no file when they
choose its name, and have the same files when the caller does. -/
theorem ranks_share_files_iff (h : StartedFrom u host overrides id cfg o)
    (h' : StartedFrom u host' overrides' id cfg' o') (hdir : cfg.logDir = cfg'.logDir)
    (hname : cfg.logFileName = cfg'.logFileName)
    (hr : u.int (stripped host.process.view (text "EWTS_RANK")) = some (r : Int))
    (hr' : u.int (stripped host'.process.view (text "EWTS_RANK")) = some (r' : Int))
    (hne : r ≠ r') :
    (cfg.logFileName = none ∨ cfg.logFileName = some [] → o.paths.Disjoint o'.paths) ∧
      (¬ (cfg.logFileName = none ∨ cfg.logFileName = some []) → o.paths ≠ [] → o'.paths ≠ [] →
        o.paths = o'.paths) := by
  have hrank := StartedFrom.mpiRank h hr
  have hrank' := StartedFrom.mpiRank h' hr'
  obtain ⟨due, process, _, hstart⟩ := h
  obtain ⟨due', process', _, hstart'⟩ := h'
  have hfiles := ((EwtsObject.start_started u host due id cfg).value process o hstart).paths_cases
  have hfiles' :=
    ((EwtsObject.start_started u host' due' id cfg').value process' o' hstart').paths_cases
  rw [← hdir, ← hname, hrank'] at hfiles'
  rw [hrank] at hfiles
  constructor
  · intro hunnamed
    rcases hfiles with hnone | ⟨logDir, payloadPath, hlogDir, hpayload, hpaths⟩
    · rw [hnone]
      exact List.disjoint_nil_left _
    rcases hfiles' with hnone | ⟨logDir', payloadPath', hlogDir', hpayload', hpaths'⟩
    · rw [hnone]
      exact List.disjoint_nil_right _
    obtain rfl : logDir = logDir' := Option.some.inj (hlogDir.symm.trans hlogDir')
    obtain ⟨root, parts, last, hranked⟩ := makeLogPath_ranked u logDir id hunnamed
    obtain ⟨hlog, hlogPayload⟩ := hranked host.now r
    obtain ⟨hlog', hlogPayload'⟩ := hranked host'.now r'
    rw [hlogPayload] at hpayload
    rw [hlogPayload'] at hpayload'
    cases hpayload
    cases hpayload'
    rw [hpaths, hpaths', hlog, hlog']
    have hdiffer := rankedPath_ne hne host.now host'.now root last parts
    intro path hpath hpath'
    simp only [List.mem_cons, List.not_mem_nil, or_false] at hpath hpath'
    rw [List.append_assoc _ (text "_payload")] at hpath hpath'
    rcases hpath with rfl | rfl
    · exact hpath'.elim (hdiffer _ _) (hdiffer _ _)
    · exact hpath'.elim (hdiffer _ _) (hdiffer _ _)
  · intro hnamed hsome hsome'
    obtain ⟨logDir, payloadPath, hlogDir, hpayload, hpaths⟩ := hfiles.resolve_left hsome
    obtain ⟨logDir', payloadPath', hlogDir', hpayload', hpaths'⟩ := hfiles'.resolve_left hsome'
    obtain rfl : logDir = logDir' := Option.some.inj (hlogDir.symm.trans hlogDir')
    rw [makeLogPath_named u logDir id hnamed host'.now host.now r' r] at hpayload' hpaths'
    rw [hpayload] at hpayload'
    cases hpayload'
    rw [hpaths, hpaths']

end Ranks

/-- A process of a rank, with only `stdout` to write notices to. -/
def rankHost (rank : String) : Host :=
  { Registry.bareHost with
    process := ⟨Environ.setenv (fun _ => none) (text "EWTS_RANK") (text rank), fun _ => none⟩ }

/-- An override that sets the directory. -/
def logsOverride : Overrides := fun _ => some ⟨none, none, some (text "/logs"), none, none⟩

/-- The configuration of a rank under that override. -/
def logsConfig (rank : Int) : EwtsConfig := ⟨true, false, some (text "/logs"), 20, rank, none⟩

/-- The logger that a rank starts with it. -/
def logsObject (rank : String) : EwtsObject :=
  let stem := text "/logs/TROUTE_rank_" ++ text rank ++ text "_20260618T181315"
  ⟨text "TROUTE", false, some (stem ++ text ".log"), some (stem ++ text "_payload.log"), 20⟩

/-- Ranks 1 and 11, which started at the same time. -/
theorem ranks_share_files_iff_eleven : (logsObject "1").paths.Disjoint (logsObject "11").paths := by
  have h : Registry.StartedFrom .ascii (rankHost "1") logsOverride (text "TROUTE") (logsConfig 1)
    (logsObject "1") := ⟨false, _, rfl, rfl⟩
  have h' : Registry.StartedFrom .ascii (rankHost "11") logsOverride (text "TROUTE")
    (logsConfig 11) (logsObject "11") := ⟨false, _, rfl, rfl⟩
  have hr : Unicode.ascii.int (stripped (rankHost "1").process.view (text "EWTS_RANK")) =
    some ((1 : Nat) : Int) := by decide
  have hr' : Unicode.ascii.int (stripped (rankHost "11").process.view (text "EWTS_RANK")) =
    some ((11 : Nat) : Int) := by decide
  exact (ranks_share_files_iff h h' rfl rfl hr hr' (by decide)).1 (Or.inl rfl)

/-- The files of the logger that a process sets up. -/
def setupPaths (rank : String) (logFileName : Option Text) : List Text :=
  let args : Registry.SetupArgs := ⟨none, none, some (text "/logs"), logFileName, none⟩
  (Registry.initial.setupLogger .ascii (rankHost rank) (text "t-route") args).2.objects.flatMap
    EwtsObject.paths

/-- Two ranks that set up a logger with one file name write to one pair of files. -/
theorem named_ranks_share_files :
    Unicode.ascii.int (text "0") = some 0 ∧ Unicode.ascii.int (text "1") = some 1 ∧
      setupPaths "0" (some (text "custom.log")) =
        [text "/logs/custom.log", text "/logs/custom_payload.log"] ∧
      setupPaths "1" (some (text "custom.log")) =
        [text "/logs/custom.log", text "/logs/custom_payload.log"] := by
  decide

end Python

end Ewts
