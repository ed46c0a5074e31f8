import Ewts.Correctness.Columns

/-!
# Lines of native logs

The loggers of the C, C++ and Fortran runtimes in one process, with the files and the standard
output that their standalone messages go to. A newline in a message of the latter two begins a
line without columns.
-/

namespace Ewts

/-- Every line of every file begins with the columns of the message that it came from. -/
def Attributed (writes : List Write) : Prop :=
  ∀ file : Option Text,
    let own := writes.filter fun w => w.file = file
    List.Forall₂ (fun line w => w.columns.text <+: line)
      (physicalLines (own.flatMap Write.content)) (lineOwners Write.content own)

/-- Files are read line by line, so every write stands for itself. -/
theorem attributed_iff {writes : List Write} (h : ∀ w ∈ writes, Terminated w.content) :
    Attributed writes ↔ ∀ w ∈ writes, w.Prefixed := by
  have hown : ∀ file : Option Text, ∀ w ∈ writes.filter fun w => w.file = file,
      Terminated w.content := fun _ w hw => h w (List.mem_of_mem_filter hw)
  constructor
  · intro hall w hw
    exact (forall₂_lineOwners_iff (hown w.file)).mp (hall w.file) w
      (List.mem_filter.mpr ⟨hw, decide_eq_true rfl⟩)
  · intro hall file
    apply (forall₂_lineOwners_iff (hown file)).mpr
    exact fun w hw => hall w (List.mem_of_mem_filter hw)

/-! ## Runs -/

/-- The native loggers of a process, and what they have written themselves. -/
structure NativeProcess where
  c : List C.LoggerState
  /-- The `Logger` objects, in the order of their construction. -/
  cpp : List Cpp.Logger
  fortran : Fortran.Registry
  /-- Whether a failed read has stopped the program. -/
  stopped : Bool
  writes : List Write

/-- A process without loggers. -/
def NativeProcess.start (vars : Fortran.Variables) : NativeProcess :=
  ⟨[], [], ⟨vars, []⟩, false, []⟩

/-- The calls of the native interfaces, with what they meet outside the library. -/
inductive NativeCall where
  | c (host : C.Host) (call : C.Call)
  /-- `Logger(ewts_id, ewts_ngen)`. -/
  | cppNew (ewtsId : Text) (ewtsNgen : Bool)
  /-- `IsLoggingEnabled()` and `GetLogLevel()` of an object. -/
  | cppQuery (env : Environ) (k : Nat)
  /-- `Log(level, message)` of an object. -/
  | cppLog (host : Cpp.Host) (k : Nat) (level : Int) (message : Text)
  /-- `logger_init_module`, `is_logger_enabled_module` and `get_log_level_module`. -/
  | fortranQuery (env : Environ) (id : Text)
  /-- `write_log_module`. -/
  | fortranLog (host : Fortran.Host) (id msg : Text) (lvl : Int)

section Runs

variable (read : Fortran.ListRead) (bridge : Bool)

/-- What a call writes itself. -/
def NativeProcess.write (p : NativeProcess) : NativeCall → Option Write
  | .c host call => call.write host p.c
  | .cppLog host k level message => (p.cpp[k]?).bind fun lg => lg.write host level message
  | .fortranLog host id msg lvl => Fortran.write read bridge host p.fortran id msg lvl
  | _ => none

/-- The Fortran loggers after a call, which may stop the program. -/
def NativeProcess.withFortran (p : NativeProcess) : Option Fortran.Found → NativeProcess
  | none => { p with stopped := true }
  | some found => { p with fortran := found.registry }

/-- The loggers after a call. -/
def NativeProcess.run (p : NativeProcess) : NativeCall → NativeProcess
  | .c host call => { p with c := C.callStep p.c (host, call) }
  | .cppNew ewtsId ewtsNgen => { p with cpp := p.cpp ++ [.new ewtsId ewtsNgen] }
  | .cppQuery env k => { p with cpp := p.cpp.modify k fun lg => lg.initOnce env }
  | .cppLog host k level message =>
    { p with cpp := p.cpp.modify k fun lg => (lg.log host level message).2 }
  | .fortranQuery env id => p.withFortran (Fortran.getLoggerIndex read bridge env p.fortran id)
  | .fortranLog host id msg lvl =>
    p.withFortran ((Fortran.writeLogModule read bridge host p.fortran id msg lvl).map Prod.snd)

/-- One call. -/
def NativeProcess.step (p : NativeProcess) (call : NativeCall) : NativeProcess :=
  if p.stopped then p
  else { p.run read bridge call with writes := p.writes ++ (p.write read bridge call).toList }

/-- The writers that do not cut a message find its columns behind every newline. -/
def NativeCall.Carries (columns : Text) : NativeCall → Prop
  | .cppLog _ _ _ message => Repeats columns message
  | .fortranLog _ _ msg _ => Repeats columns (Fortran.trim msg)
  | _ => True

/-- What a call writes has an id without newlines, and a message that carries its columns. -/
def NativeProcess.Plain (p : NativeProcess) (call : NativeCall) : Prop :=
  p.stopped = false → ∀ w ∈ p.write read bridge call,
    ch '\n' ∉ w.columns.ewtsId ∧ call.Carries w.columns.text

/-- Loggers with the columns of their ids, and writes that end their lines. -/
structure NativeProcess.Valid (p : NativeProcess) : Prop where
  c : ∀ st ∈ p.c, st.Ready
  cpp : ∀ lg ∈ p.cpp, lg.Ready
  fortran : ∀ lg ∈ p.fortran.loggers, lg.Ready
  writes : ∀ w ∈ p.writes, Terminated w.content

variable {read bridge} {p : NativeProcess}

/-- A call writes whole lines, which begin with the columns under its condition. -/
theorem NativeProcess.Valid.write (h : p.Valid) {call : NativeCall} {w : Write}
    (hw : w ∈ p.write read bridge call) :
    Terminated w.content ∧
      (w.Prefixed ↔ ch '\n' ∉ w.columns.ewtsId ∧ call.Carries w.columns.text) := by
  cases call with
  | c host call =>
    obtain ⟨hend, hiff⟩ := C.Call.write_spec h.c hw
    exact ⟨hend, hiff.trans (and_iff_left trivial).symm⟩
  | cppNew => cases hw
  | cppQuery => cases hw
  | cppLog host k level message =>
    obtain ⟨lg, hlg, hwrite⟩ := Option.bind_eq_some_iff.mp hw
    have hcontent := Cpp.Logger.write_spec (h.cpp lg (List.mem_of_getElem? hlg)) hwrite
    exact ⟨⟨_, hcontent⟩, prefixed_raw_iff hcontent⟩
  | fortranQuery => cases hw
  | fortranLog host id msg lvl =>
    have hcontent := Fortran.write_spec h.fortran hw
    exact ⟨⟨_, hcontent⟩, prefixed_raw_iff hcontent⟩

theorem forall_modify {P : Cpp.Logger → Prop} {f : Cpp.Logger → Cpp.Logger} {l : List Cpp.Logger}
    (h : ∀ lg ∈ l, P lg) (hf : ∀ lg, P lg → P (f lg)) (k : Nat) : ∀ lg ∈ l.modify k f, P lg := by
  induction l generalizing k with
  | nil =>
    rw [List.modify_nil]
    exact h
  | cons lg l ih =>
    rw [List.forall_mem_cons] at h
    cases k with
    | zero => exact List.forall_mem_cons.mpr ⟨hf lg h.1, h.2⟩
    | succ k => exact List.forall_mem_cons.mpr ⟨h.1, ih h.2 k⟩

/-- A call keeps the loggers valid. -/
theorem NativeProcess.Valid.run (h : p.Valid) (call : NativeCall) :
    (p.run read bridge call).Valid := by
  cases call with
  | c host call => exact ⟨C.callStep_ready h.c _, h.cpp, h.fortran, h.writes⟩
  | cppNew ewtsId ewtsNgen =>
    refine ⟨h.c, ?_, h.fortran, h.writes⟩
    have hnew : (Cpp.Logger.new ewtsId ewtsNgen).Ready := fun hinit => Bool.noConfusion hinit
    exact List.forall_mem_append.mpr ⟨h.cpp, List.forall_mem_singleton.mpr hnew⟩
  | cppQuery env k =>
    refine ⟨h.c, forall_modify h.cpp (fun lg hlg => ?_) k, h.fortran, h.writes⟩
    obtain ⟨_, hid, hpadded⟩ := hlg.initOnce env
    exact fun _ => hpadded.trans (congrArg Cpp.padId hid.symm)
  | cppLog host k level message =>
    exact ⟨h.c, forall_modify h.cpp (fun lg hlg => hlg.log host level message) k, h.fortran,
      h.writes⟩
  | fortranQuery env id =>
    rw [NativeProcess.run]
    cases hfound : Fortran.getLoggerIndex read bridge env p.fortran id with
    | none => exact ⟨h.c, h.cpp, h.fortran, h.writes⟩
    | some found =>
      exact ⟨h.c, h.cpp, (Fortran.getLoggerIndex_spec h.fortran hfound).2.2, h.writes⟩
  | fortranLog host id msg lvl =>
    rw [NativeProcess.run]
    cases hwrite : Fortran.writeLogModule read bridge host p.fortran id msg lvl with
    | none => exact ⟨h.c, h.cpp, h.fortran, h.writes⟩
    | some written =>
      exact ⟨h.c, h.cpp, Fortran.writeLogModule_ready h.fortran hwrite, h.writes⟩

theorem NativeProcess.Valid.step (h : p.Valid) (call : NativeCall) :
    (p.step read bridge call).Valid := by
  have hrun : (p.run read bridge call).Valid := h.run call
  unfold NativeProcess.step
  split
  · exact h
  · have hnew : ∀ w ∈ (p.write read bridge call).toList, Terminated w.content :=
      fun w hw => (h.write (Option.mem_toList.mp hw)).1
    exact ⟨hrun.c, hrun.cpp, hrun.fortran, List.forall_mem_append.mpr ⟨h.writes, hnew⟩⟩

/-- A call adds its own lines. -/
theorem NativeProcess.Valid.attributed_step_iff (h : p.Valid) (hp : Attributed p.writes)
    (call : NativeCall) :
    Attributed (p.step read bridge call).writes ↔ p.Plain read bridge call := by
  have hstep : (p.step read bridge call).Valid := h.step call
  rw [attributed_iff h.writes] at hp
  rw [attributed_iff hstep.writes]
  unfold NativeProcess.step NativeProcess.Plain
  cases p.stopped with
  | true => exact iff_of_true hp fun hstopped => Bool.noConfusion hstopped
  | false =>
    simp only [Bool.false_eq_true, ite_false, forall_const, List.forall_mem_append]
    rw [and_iff_right hp]
    refine forall_congr' fun w => ?_
    rw [Option.mem_toList]
    exact forall_congr' fun hw => (h.write hw).2

theorem NativeProcess.valid_start (vars : Fortran.Variables) :
    (NativeProcess.start vars).Valid :=
  ⟨List.forall_mem_nil _, List.forall_mem_nil _, List.forall_mem_nil _, List.forall_mem_nil _⟩

variable (read bridge) in
/-- Along every run, the lines of the native logs can be attributed as long as no column of an
id holds a newline, and every newline of a C++ or Fortran message stands before its columns. -/
theorem lines_attributed_iff (vars : Fortran.Variables) (calls : List NativeCall) :
    AllStates (NativeProcess.step read bridge) (fun p => Attributed p.writes) (.start vars) calls ↔
      EachStep (NativeProcess.step read bridge) (NativeProcess.Plain read bridge) (.start vars)
        calls := by
  have hstart := NativeProcess.valid_start vars
  apply allStates_iff_eachStep (I := NativeProcess.Valid)
  · exact fun p call h => h.step call
  · exact fun p call h hp => h.attributed_step_iff hp call
  · exact hstart
  · exact (attributed_iff hstart.writes).mpr (List.forall_mem_nil _)

/-! ## Continuation lines -/

/-- No short text begins with columns. -/
theorem Columns.not_isPrefix (c : Columns) {s : Text} (h : s.length < 17) : ¬ c.text <+: s := by
  intro hpre
  have hlength := hpre.length_le
  rw [Columns.text, List.length_append, List.length_append, List.length_cons, List.length_cons,
    c.length_ewtsId, c.length_level] at hlength
  omega

/-- A message of two lines of which the second one is short. -/
theorem NativeProcess.Valid.not_attributed (h : p.Valid) (hp : Attributed p.writes)
    (hstopped : p.stopped = false) {call : NativeCall} {w : Write}
    (hw : w ∈ p.write read bridge call)
    (hcall : call.Carries w.columns.text → Repeats w.columns.text (text "first\nsecond")) :
    ¬ Attributed (p.step read bridge call).writes := by
  rw [h.attributed_step_iff hp]
  intro hplain
  exact w.columns.not_isPrefix (by decide)
    (hcall (hplain hstopped w hw).2 (text "first") (text "second") rfl)

end Runs

/-- A host without ngen, whose messages go to standard output. -/
private def plainCpp : Cpp.Host := ⟨fun _ => none, default, false, fun _ => true, fun _ => true⟩

/-- A host on UTC. -/
private def plainFortran : Fortran.Host where
  env := fun _ => none
  clock :=
    { reading := ⟨⟨2026, 6, 18⟩, 18, 13⟩, zoneMin := 0, sec := 15, ms := 250
      date := ⟨by decide, by decide, by decide, by decide⟩
      hour := by decide
      minute := by decide
      second := by decide
      millisecond := by decide
      year := by simp [Fortran.adjustUtc, Fortran.borrowDays, Fortran.carryDays] }
  opens := fun _ => none

private def emptyProcess : NativeProcess := .start ⟨[], [], 0, 0⟩

/-- The second line of a C++ or Fortran message has no columns. -/
theorem continuation_unattributed :
    ¬ AllStates (NativeProcess.step .plain false) (fun p => Attributed p.writes) emptyProcess
        [.cppNew (text "PET") false, .cppLog plainCpp 0 20 (text "first\nsecond")] ∧
      ¬ AllStates (NativeProcess.step .plain false) (fun p => Attributed p.writes) emptyProcess
        [.fortranLog plainFortran (text "PET") (text "first\nsecond") 20] := by
  have hstart : emptyProcess.Valid := NativeProcess.valid_start _
  have hempty : Attributed [] := fun _ => .nil
  constructor
  · intro h
    have hnew : (emptyProcess.step .plain false (.cppNew (text "PET") false)).Valid := hstart.step _
    exact hnew.not_attributed hempty rfl rfl id (h _ List.prefix_rfl)
  · intro h
    exact hstart.not_attributed hempty rfl rfl id (h _ List.prefix_rfl)

end Ewts
