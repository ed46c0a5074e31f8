import Ewts.Correctness.CppInterleaving

/-!
# Files of the C++ runtime

The name of a file carries the key of the logger that opened it, so no other logger opens it.
Each file holds the lines of one logger, whole and in order, up to the line that a thread is at.
-/

namespace Ewts.Cpp

variable {τ : Type} {host : Host}

/-! ## Keys -/

theorem isBlank_toUpper (c : CodePoint) : isBlank c.toUpper = isBlank c := by
  have hval := CodePoint.toUpper_val c
  have hiff (d : CodePoint) : isBlank d = true ↔
      d.val = 0x20 ∨ d.val = 0x9 ∨ d.val = 0xD ∨ d.val = 0xA := by
    simp only [isBlank, Bool.or_eq_true, decide_eq_true_eq, Fin.ext_iff]
    exact ⟨fun h => by tauto, fun h => by tauto⟩
  rw [Bool.eq_iff_iff, hiff, hiff, hval]
  split
  · omega
  · rfl

/-- A key is its own key. -/
theorem trimUpper_trimUpper (s : Text) : trimUpper (trimUpper s) = trimUpper s := by
  have htrim (t : Text) : trimBlank t = trimWith isBlank t := rfl
  have hclass : isBlank ∘ CodePoint.toUpper = isBlank := funext isBlank_toUpper
  simp only [trimUpper, C.toupperAll, htrim]
  rw [trimWith_map, hclass, trimWith_trimWith, List.map_map]
  exact List.map_congr_left fun c _ => CodePoint.toUpper_toUpper c

/-- A text that can stand in a file name: without NULs and slashes. -/
def PlainName (s : Text) : Prop := ∀ c ∈ s, c ≠ 0 ∧ c ≠ ch '/'

instance (s : Text) : Decidable (PlainName s) := inferInstanceAs (Decidable (∀ c ∈ s, _))

theorem plainName_append {s t : Text} : PlainName (s ++ t) ↔ PlainName s ∧ PlainName t :=
  List.forall_mem_append

theorem toUpper_plain {c : CodePoint} (h : c ≠ 0 ∧ c ≠ ch '/') :
    c.toUpper ≠ 0 ∧ c.toUpper ≠ ch '/' := by
  have hval := CodePoint.toUpper_val c
  have hslash : (ch '/').val = 0x2F := rfl
  split at hval
  · refine ⟨fun hzero => ?_, fun hsame => ?_⟩
    · rw [hzero, Fin.val_zero] at hval
      omega
    · rw [hsame, hslash] at hval
      omega
  · rwa [Fin.ext hval]

/-- A plain id has a plain key. -/
theorem loggerKey_plain {id : Text} (h : PlainName id) : PlainName (loggerKey id) := by
  intro c hc
  obtain ⟨d, hd, rfl⟩ := List.mem_map.mp hc
  apply toUpper_plain
  have hmem := mem_of_mem_trimWith hd
  split at hmem
  · exact (by decide : PlainName (text "EWTS")) d hmem
  · exact h d hmem

/-- The file that a logger opens at some time. -/
def filePath (env : Environ) (key : Text) (stamp : Timestamp) : Text :=
  cStr (getenv env (text "EWTS_LOG_DIR") ++ ch '/' :: key ++ ch '_' :: stamp.compact ++
    text ".log")

/-- What stands behind the key in a file name. -/
def fileTail (stamp : Timestamp) : Text := ch '_' :: stamp.compact ++ text ".log"

theorem fileTail_plain (stamp : Timestamp) : PlainName (fileTail stamp) := by
  refine plainName_append.mpr ⟨fun c hc => ?_, by decide⟩
  rcases List.mem_cons.mp hc with rfl | hc
  · decide
  · rcases Timestamp.mem_compact hc with hc | rfl
    · refine ⟨?_, ?_⟩ <;> rintro rfl <;> cases hc
    · decide

theorem length_fileTail (stamp : Timestamp) : (fileTail stamp).length = 20 := by
  have hlog : (text ".log").length = 4 := rfl
  simp [fileTail, Timestamp.compact, hlog]

/-- The file of a plain key lies in the log directory. -/
theorem filePath_eq {key : Text} (h : PlainName key) (env : Environ) (stamp : Timestamp) :
    filePath env key stamp =
      getenv env (text "EWTS_LOG_DIR") ++ ch '/' :: (key ++ fileTail stamp) := by
  have hwhole : filePath env key stamp =
      cStr (getenv env (text "EWTS_LOG_DIR") ++ ch '/' :: (key ++ fileTail stamp)) := by
    simp [filePath, fileTail]
  rw [hwhole]
  refine cStr_of_no_nul fun c hc => ?_
  rcases List.mem_append.mp hc with hc | hc
  · exact cStr_no_nul hc
  · rcases List.mem_cons.mp hc with rfl | hc
    · decide
    · exact (plainName_append.mpr ⟨h, fileTail_plain stamp⟩ c hc).1

/-- The path gives the key away. -/
theorem filePath_inj {env : Environ} {key key' : Text} {stamp stamp' : Timestamp}
    (hkey : PlainName key) (hkey' : PlainName key')
    (h : filePath env key stamp = filePath env key' stamp') : key = key' := by
  rw [filePath_eq hkey, filePath_eq hkey'] at h
  have hrest := (List.cons.inj (List.append_cancel_left h)).2
  refine (List.append_inj' hrest ?_).1
  rw [length_fileTail, length_fileTail]

/-! ## Who writes to a file -/

/-- The path is one of the logger of this key. -/
def Files (host : Host) (key path : Text) : Prop := ∃ stamp, path = filePath host.env key stamp

/-- Loggers that open files of their own. -/
def Loggers.Filed (host : Host) (loggers : Loggers) : Prop :=
  ∀ key lg, loggers key = some lg → lg.ewtsId = key ∧ ∀ path ∈ lg.out, Files host key path

/-- What a thread knows about files at its position. -/
def Position.Filed (host : Host) (loggers : Loggers) : Position → Prop
  | .find key _ _ | .create key _ _ => trimUpper key = key
  | .write key sink _ => loggers.Present key ∧ ∀ path ∈ sink, Files host key path
  | _ => True

/-- What holds of files between two steps. -/
structure World.Filed (host : Host) (w : World τ) : Prop where
  loggers : w.shared.loggers.Filed host
  threads : ∀ t, (w.threads t).position.Filed host w.shared.loggers
  files : ∀ path, ∀ p ∈ w.shared.out (some path),
    ∃ key text, p = .piece key text ∧ w.shared.loggers.Present key ∧ Files host key path

section Moves

variable {s : Shared τ} {t : τ} {now : Timestamp} {θ : Thread} {r : Shared τ × Thread}
  {loggers : Loggers} {lg lg' : Logger} {key : Text}

theorem Logger.out_initOnce (env : Environ) (lg : Logger) : (lg.initOnce env).out = lg.out := by
  unfold initOnce
  split <;> rfl

/-- A file that is opened has the name of its logger. -/
theorem Logger.openStandaloneFile_out (h : lg.openStandaloneFile host = some lg') :
    ∀ path ∈ lg'.out, path ∈ lg.out ∨ path = filePath host.env lg.ewtsId host.now := by
  unfold openStandaloneFile at h
  simp only at h
  split at h
  · rw [← Option.some.inj h]
    exact fun path hpath => Or.inl hpath
  · split at h
    · rw [← Option.some.inj h]
      exact fun path hpath => Or.inl hpath
    · split at h
      · cases h
      · rw [← Option.some.inj h]
        intro path hpath
        simp only at hpath
        split at hpath
        · exact Or.inr (Option.some.inj hpath).symm
        · cases hpath

theorem Position.Filed.mono {position : Position} {loggers' : Loggers}
    (h : position.Filed host loggers) (hgrows : loggers.Grows loggers') :
    position.Filed host loggers' := by
  cases position with
  | write => exact ⟨h.1.mono hgrows, h.2⟩
  | _ => exact h

theorem Loggers.Filed.set (h : loggers.Filed host) (hid : lg.ewtsId = key)
    (hout : ∀ path ∈ lg.out, Files host key path) :
    Loggers.Filed host (Function.update loggers key (some lg)) := by
  intro other lg' hother
  by_cases hkey : other = key
  · rw [hkey, Function.update_self] at hother
    cases hother
    exact hkey ▸ ⟨hid, hout⟩
  · rw [Function.update_of_ne hkey] at hother
    exact h other lg' hother

theorem Call.trimUpper_lookup {call : Call} {current : Option Text} {ewtsNgen : Bool}
    (h : call.lookup current = some (key, ewtsNgen)) : trimUpper key = key := by
  have hkey (id : Text) : trimUpper (loggerKey id) = loggerKey id := trimUpper_trimUpper _
  cases call with
  | ewtsInit | of =>
    cases h
    exact hkey _
  | current method =>
    cases current with
    | some key => cases h
    | none =>
      cases h
      exact hkey _

/-- Each step opens and writes files under the names of their loggers. -/
theorem Thread.Move.filed (hmove : Thread.Move host s t now θ r)
    (hsound : θ.position.Sound host s.loggers) (hgrows : s.loggers.Grows r.1.loggers)
    (h : s.loggers.Filed host) (hθ : θ.position.Filed host s.loggers) :
    r.1.loggers.Filed host ∧ r.2.position.Filed host r.1.loggers := by
  cases hmove with
  | enter hlookup => exact ⟨h, Call.trimUpper_lookup hlookup⟩
  | missing => exact ⟨h, hθ⟩
  | stay => exact ⟨h, hθ⟩
  | @create key ewtsNgen =>
    refine ⟨h.set hθ fun path hpath => ?_, trivial⟩
    cases hpath
  | @initialise key =>
    obtain ⟨lg, hlg⟩ := hsound
    simp only [Shared.setLogger, Loggers.at_of_some hlg]
    refine ⟨h.set ?_ ?_, trivial⟩
    · rw [Logger.ewtsId_initOnce]
      exact (h key lg hlg).1
    · rw [Logger.out_initOnce]
      exact (h key lg hlg).2
  | @opened key _ _ _ _ _ _ lg hopen =>
    obtain ⟨lg', hlg', _⟩ := hsound.1
    rw [Loggers.at_of_some hlg'] at hopen
    obtain ⟨hid, hout⟩ := h key lg' hlg'
    have hfiles : ∀ path ∈ lg.out, Files host key path := by
      intro path hpath
      rcases Logger.openStandaloneFile_out hopen path hpath with hold | hnew
      · exact hout path hold
      · rw [hid] at hnew
        exact ⟨now, hnew⟩
    refine ⟨h.set ?_ hfiles, ⟨lg, Function.update_self ..⟩, hfiles⟩
    rw [Logger.eq_of_settled (Logger.openStandaloneFile_settled hopen)]
    exact hid
  | insert => exact ⟨h, hθ⟩
  | _ => exact ⟨h, trivial⟩

/-- What a step inserts into a file. -/
theorem Thread.Move.inserted (hmove : Thread.Move host s t now θ r)
    (hθ : θ.position.Filed host s.loggers) {path : Text} {p : Printed}
    (hp : p ∈ r.1.out (some path)) : p ∈ s.out (some path) ∨
      ∃ key text, p = .piece key text ∧ s.loggers.Present key ∧ Files host key path := by
  cases hmove with
  | notice => exact Or.inl (by simpa [Shared.print] using hp)
  | @insert key sink piece =>
    by_cases hsink : some path = sink
    · rw [← hsink] at hp hθ
      simp only [Shared.print, Function.update_self] at hp
      rcases List.mem_append.mp hp with hp | hp
      · exact Or.inl hp
      · rw [List.mem_singleton.mp hp]
        exact Or.inr ⟨key, piece, rfl, hθ.1, hθ.2 path rfl⟩
    · simp only [Shared.print, Function.update_of_ne hsink] at hp
      exact Or.inl hp
  | _ => exact Or.inl hp

end Moves

section Runs

variable [DecidableEq τ] {w : World τ}

theorem World.Filed.step (h : w.Filed host) (hinv : w.Invariant host) (turn : τ × Timestamp) :
    (w.step host turn).Filed host := by
  obtain ⟨t, now⟩ := turn
  have hmove := Thread.step_move host w.shared t now (w.threads t)
  have hgrows := (hmove.stepSound (hinv.sound t)).grows
  obtain ⟨hloggers, hthread⟩ :=
    hmove.filed (hinv.sound t).position hgrows h.loggers (h.threads t)
  refine ⟨hloggers, fun u => ?_, fun path p hp => ?_⟩
  · by_cases hu : u = t
    · simp only [World.step, hu, Function.update_self]
      exact hthread
    · simp only [World.step, Function.update_of_ne hu]
      exact (h.threads u).mono hgrows
  · rcases hmove.inserted (h.threads t) hp with hold | ⟨key, text, rfl, hkey, hpath⟩
    · obtain ⟨key, text, rfl, hkey, hpath⟩ := h.files path p hold
      exact ⟨key, text, rfl, hkey.mono hgrows, hpath⟩
    · exact ⟨key, text, rfl, hkey.mono hgrows, hpath⟩

theorem World.filed_run (host : Host) (programs : τ → List Call)
    (schedule : List (τ × Timestamp)) : (World.run host programs schedule).Filed host := by
  refine (runFrom_invariant (I := fun w : World τ => w.Invariant host ∧ w.Filed host)
    (fun w turn _ h => ⟨h.1.step turn, h.2.step h.1 turn⟩) ⟨.start programs, ?_⟩).2
  refine ⟨fun key lg h => ?_, fun _ => trivial, fun path p hp => ?_⟩
  · cases h
  · cases hp

/-- The text of a file. -/
def fileText (printed : List Printed) : Text :=
  printed.flatMap fun
    | .piece _ text | .notice _ text => text

/-- A file into which one logger inserts. -/
theorem fileText_eq {printed : List Printed} {key : Text}
    (h : ∀ p ∈ printed, ∃ text, p = .piece key text) : fileText printed = piecesOf key printed := by
  rw [fileText, piecesOf]
  apply List.flatMap_congr
  intro p hp
  obtain ⟨text, rfl⟩ := h p hp
  exact (if_pos rfl).symm

/-! ## Files -/

/-- The ids of a call can stand in file names. -/
def Call.Plain : Call → Prop
  | .ewtsInit ewtsId _ | .of ewtsId _ _ => PlainName ewtsId
  | .current _ => True

/-- The key that a request is about. -/
def Request.key : Request → Text
  | .getLogger key _ | .select key | .method key _ => key

theorem Call.key_requests (call : Call) (current : Option Text) :
    ∀ request ∈ call.requests current, request.key = call.key current := by
  intro request hrequest
  have hof (key : Text) (method : Option Method) : (Request.of key method).key = key := by
    cases method <;> rfl
  rcases List.mem_append.mp hrequest with h | h
  · obtain ⟨l, hl, rfl⟩ := List.mem_map.mp h
    cases call with
    | ewtsInit | of =>
      cases Option.mem_toList.mp hl
      rfl
    | current method =>
      cases current with
      | some key => cases Option.mem_toList.mp hl
      | none =>
        cases Option.mem_toList.mp hl
        rfl
  · rw [List.mem_singleton.mp h]
    exact hof _ _

/-- The keys that calls name are plain. -/
theorem requests_plain {calls : List Call} (hcalls : ∀ call ∈ calls, call.Plain) :
    ∀ current : Option Text, (∀ key ∈ current, PlainName key) →
      ∀ request ∈ requests current calls, PlainName request.key := by
  induction calls with
  | nil =>
    intro current _ request hrequest
    cases hrequest
  | cons call calls ih =>
    intro current hcurrent request hrequest
    have hcall : call.Plain := hcalls call (List.mem_cons_self ..)
    rcases List.mem_append.mp hrequest with h | h
    · rw [call.key_requests current request h]
      cases call with
      | ewtsInit | of => exact loggerKey_plain hcall
      | current method =>
        cases current with
        | some key => exact hcurrent key rfl
        | none => exact loggerKey_plain (by decide : PlainName (text "EWTS"))
    · refine ih (fun call hc => hcalls call (List.mem_cons_of_mem _ hc)) _ ?_ request h
      cases call with
      | ewtsInit =>
        rintro key ⟨⟩
        exact loggerKey_plain hcall
      | current | of => exact hcurrent

/-- A serial run has loggers for the keys of its requests. -/
theorem Serial.mem_of_loggers {order : List (Event τ)} {key : Text}
    (h : (runFrom (Serial.step host) Serial.start order).loggers key ≠ none) :
    ∃ e ∈ order, e.request.key = key := by
  revert h
  refine runFrom_invariant
    (I := fun s : Serial τ => s.loggers key ≠ none → ∃ e ∈ order, e.request.key = key)
    (fun s e he ih h => ?_) fun h => absurd rfl h
  by_cases hkey : e.request.key = key
  · exact ⟨e, he, hkey⟩
  · refine ih fun hnone => h ?_
    obtain ⟨t, request, read, opened⟩ := e
    cases request with
    | getLogger own ewtsNgen =>
      have hother : key ≠ own := Ne.symm hkey
      simp only [step]
      cases hown : s.loggers own with
      | some lg => rwa [Loggers.get_of_some hown]
      | none => rwa [Loggers.get_of_none hown, Function.update_of_ne hother]
    | select own => exact hnone
    | method own m =>
      have hother : key ≠ own := Ne.symm hkey
      have hloggers (s : Serial τ) (o : Option Output) (answer : Answer) :
          ((s.deliver own o).answer t answer).loggers = s.loggers := by
        rcases o with _ | _ | _ | _ <;> rfl
      simp only [step]
      rw [hloggers]
      exact (Function.update_of_ne hother ..).trans hnone

/-- Where the ids are plain, so are the keys of loggers. -/
theorem World.plain_of_present {host : Host} {programs : τ → List Call}
    {schedule : List (τ × Timestamp)} (hplain : ∀ t, ∀ call ∈ programs t, call.Plain) {key : Text}
    (h : (World.run host programs schedule).shared.loggers.Present key) : PlainName key := by
  have hexplains := World.explains_run host programs schedule
  have hserial : (runFrom (Serial.step host) Serial.start
      (World.order host programs schedule)).loggers key ≠ none := by
    have hview : view host.env (World.run host programs schedule).shared.loggers key ≠ none :=
      Loggers.present_iff.mp h
    rw [hexplains.loggers] at hview
    exact fun hnone => hview (view_of_none hnone)
  obtain ⟨e, he, rfl⟩ := Serial.mem_of_loggers hserial
  have hmem : e.request ∈ requests none (programs e.thread) := by
    rw [hexplains.requests e.thread]
    refine List.mem_append_left _ (List.mem_filterMap.mpr ⟨e, he, ?_⟩)
    exact if_pos rfl
  refine requests_plain (hplain e.thread) none (fun key hkey => ?_) e.request hmem
  cases hkey

/-- A file holds what one logger writes: the lines of the serial run, one after the other and up to
the line that is being inserted. No other logger inserts into it. All files that are written lie in
the log directory under names of their own. -/
theorem World.files_whole (host : Host) (programs : τ → List Call)
    (schedule : List (τ × Timestamp)) (hplain : ∀ t, ∀ call ∈ programs t, call.Plain) :
    let w := World.run host programs schedule
    ∃ order, Explains host programs w order ∧ ∀ path,
      (w.shared.out (some path) ≠ [] → ∃ name, ch '/' ∉ name ∧
        path = getenv host.env (text "EWTS_LOG_DIR") ++ ch '/' :: name) ∧
      ∃ key, (∀ p ∈ w.shared.out (some path), ∃ text, p = .piece key text) ∧
        fileText (w.shared.out (some path)) ++ w.unwritten key (some path) =
          (runFrom (Serial.step host) Serial.start order).out key (some path) := by
  intro w
  have hexplains := World.explains_run host programs schedule
  refine ⟨_, hexplains, fun path => ?_⟩
  have hfiles := (World.filed_run host programs schedule).files path
  obtain ⟨hname, key, hkey⟩ : (w.shared.out (some path) ≠ [] → ∃ name, ch '/' ∉ name ∧
      path = getenv host.env (text "EWTS_LOG_DIR") ++ ch '/' :: name) ∧
        ∃ key, ∀ p ∈ w.shared.out (some path), ∃ text, p = .piece key text := by
    change ∀ p ∈ w.shared.out (some path), _ at hfiles
    cases hout : w.shared.out (some path) with
    | nil =>
      refine ⟨fun hne => absurd rfl hne, [], fun p hp => ?_⟩
      cases hp
    | cons first rest =>
      rw [hout] at hfiles
      obtain ⟨key, _, _, hpresent, ⟨stamp, hpath⟩⟩ := hfiles first (List.mem_cons_self ..)
      have hplainKey := World.plain_of_present hplain hpresent
      refine ⟨fun _ => ⟨key ++ fileTail stamp, ?_, hpath.trans (filePath_eq hplainKey _ _)⟩, key,
        fun p hp => ?_⟩
      · intro hslash
        exact (plainName_append.mpr ⟨hplainKey, fileTail_plain stamp⟩ _ hslash).2 rfl
      · obtain ⟨key', text, rfl, hpresent', ⟨stamp', hpath'⟩⟩ := hfiles p hp
        have hsame : key' = key := filePath_inj (World.plain_of_present hplain hpresent')
          hplainKey (hpath'.symm.trans hpath)
        exact ⟨text, by rw [hsame]⟩
  refine ⟨hname, key, hkey, ?_⟩
  rw [fileText_eq hkey]
  exact hexplains.out key (some path)

private def logHost : Host where
  env := Environ.setenv (fun _ => none) (text "EWTS_LOG_DIR") (text "/log")
  now := default
  linked := false
  creates _ := true
  opens _ := true

/-- Two threads with loggers of their own, and one logger that both use. -/
private def logPrograms : Bool → List Call := fun t =>
  [.of (if t then text "pet" else text "cfe") true (.log 40 (some (text "late"))),
    .of (text "sft") true (.log 30 (some (text "dry")))]

private def logSchedule : List (Bool × Timestamp) :=
  (List.range 120).map fun n => (decide (n % 2 = 0), default)

set_option maxRecDepth 2000 in
theorem World.files_whole_pair :
    let w := World.run logHost logPrograms logSchedule
    fileText (w.shared.out (some (text "/log/PET_20260618T181315.log"))) =
        text "2026-06-18T18:13:15.250Z PET      SEVERE  late\n" ∧
      ∃ order, Explains logHost logPrograms w order ∧ ∀ path,
        (w.shared.out (some path) ≠ [] → ∃ name, ch '/' ∉ name ∧
          path = getenv logHost.env (text "EWTS_LOG_DIR") ++ ch '/' :: name) ∧
        ∃ key, (∀ p ∈ w.shared.out (some path), ∃ text, p = .piece key text) ∧
          fileText (w.shared.out (some path)) ++ w.unwritten key (some path) =
            (runFrom (Serial.step logHost) Serial.start order).out key (some path) := by
  intro w
  refine ⟨by decide +kernel, World.files_whole _ _ _ fun t call hcall => ?_⟩
  have hids : ∀ id ∈ [text "pet", text "cfe", text "sft"], PlainName id := by decide
  simp only [logPrograms, List.mem_cons, List.not_mem_nil, or_false] at hcall
  rcases hcall with rfl | rfl
  · refine hids _ ?_
    cases t <;> decide
  · exact hids _ (by decide)

end Runs

end Ewts.Cpp
