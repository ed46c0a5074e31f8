import Ewts.Correctness.Forwarding
import Ewts.Correctness.TwoStage

/-!
# The filters of modules are transparent

Every runtime filters before it hands a message to ngen. Where the configured keys of an id agree,
its loggers find the level by which ngen filters itself: the outputs of ngen are then the same as
if the runtimes handed on everything.
-/

namespace Ewts.Ngen

/-- The configured keys of a registered id have one level, that of its first registry key, and it
is not `NOTSET`. -/
structure Consistent (mods : List (Text × Text)) (id : Text) : Prop where
  registered : id ∈ registeredIds
  configured : ∃ kv ∈ mods, resolvesTo id kv
  same : ∀ kv ∈ mods, resolvesTo id kv →
    Ngen.configured mods (trim kv.1) = some (firstKeyLevel mods id)
  set : firstKeyLevel mods id ≠ .NOTSET

/-! ## What the runtimes find -/

/-- The runtimes look at the variable that ngen exports. -/
theorem levelVariable_of_registered {id : Text} (h : id ∈ registeredIds) :
    C.buildModuleLoglevelEnv id = levelVariable id ∧
      cStr (Cpp.moduleLoglevelEnv id) = levelVariable id ∧
      Fortran.trim (Fortran.envKeyFor id) = levelVariable id ∧ cStr id = id := by
  revert id
  decide

theorem value_ne_zero {level : LogLevel} (h : level ≠ .NOTSET) : (level.value : Int) ≠ 0 := by
  revert h
  cases level <;> decide

theorem cppParseLevel_decimal (level : LogLevel) :
    Cpp.parseLevel (cStr (decimal level.value)) = level.value := by
  cases level <;> decide

/-- Exported numbers are read back by the Fortran runtime. -/
theorem fortranParseLevel_decimal (read : Fortran.ListRead) (level : LogLevel) :
    Fortran.parseLevel read (Fortran.assign 256 (decimal level.value)) = level.value := by
  have hvalue : Fortran.assign 32 (Fortran.adjustl (Fortran.trim
      (Fortran.assign 256 (decimal level.value)))) =
        Fortran.blanks 0 ++ (decimal level.value ++
          Fortran.blanks (32 - (decimal level.value).length)) := by
    cases level <;> decide
  have hne : Fortran.trim (Fortran.blanks 0 ++ (decimal level.value ++
      Fortran.blanks (32 - (decimal level.value).length))) ≠ [] := by
    cases level <;> decide
  have hsmall : level.value < 2147483648 := by
    cases level <;> decide
  simp only [Fortran.parseLevel, hvalue, if_neg hne, read.integer_decimal _ _ _ hsmall]
  exact if_pos (Int.natCast_nonneg _)

section Start

variable {os : Os} {order : HashOrder} {stamp : Timestamp} {env : Environ}
  {files : Text → Option Text} {tree : ConfigTree} {mods : List (Text × Text)} {id : Text}

/-- The exported value of such an id. -/
theorem Consistent.exported (h : Consistent mods id)
    (hload : configOf os (resultsDir env) = some tree) (hm : tree.modules.getD [] = mods) :
    (afterInit os order stamp env files).env (levelVariable id) =
      some (decimal (firstKeyLevel mods id).value) := by
  obtain ⟨kv, hkv, hkey⟩ := h.configured
  rw [afterInit_env, policyOf_loaded os order env hload]
  refine setEnvVars_level (registeredIds_ne_nil h.registered)
    ⟨trim kv.1, firstKeyLevel mods id, ?_, hkey⟩
    fun key level hl hown => load_levels_agree hm h.same ?_ hl hown
  · rw [lookup_load .fresh _ hm rfl, h.same kv hkv hkey, Option.some_or]
  · rintro rfl hnone
    rw [firstKeyLevel, firstEntry_ngen, Option.bind_some, hnone, Option.getD_none]

/-- The threshold of ngen for it. -/
theorem effectiveLevel_afterInit (hload : configOf os (resultsDir env) = some tree)
    (hm : tree.modules.getD [] = mods) :
    (afterInit os order stamp env files).logger.effectiveLevel id = firstKeyLevel mods id := by
  rw [afterInit_filter, policyOf_loaded os order env hload, effectiveLevel_load _ hm]

/-- The mode of the configuration. -/
theorem afterInit_mode (hload : configOf os (resultsDir env) = some tree) :
    (afterInit os order stamp env files).logger.splitLogsByModule =
      tree.splitLogsByModule.getD false := by
  have hmode : (afterInit os order stamp env files).logger.splitLogsByModule =
      (policyOf os order .fresh env).splitLogsByModule := by
    rw [afterInit_eq, Process.setupLogFile]
    split <;> rfl
  rw [hmode, policyOf_loaded os order env hload]
  rfl

/-- The exported switch. -/
theorem afterInit_ewtsEnabled : (afterInit os order stamp env files).env (text "EWTS_ENABLED") =
    some (if (afterInit os order stamp env files).logger.loggingEnabled then text "1"
      else text "0") := by
  have hother : ∀ a ∈ exports order (policyOf os order .fresh env).moduleLogLevels,
      a.1 ≠ text "EWTS_ENABLED" :=
    exports_ne (policyVariables_suffix _ (by simp [policyVariables]))
  rw [afterInit_env, afterInit_loggingEnabled, setEnvVars, Environ.setAll_other hother,
    Environ.setenv_same]

variable (os order stamp env files) in
/-- All runtimes read the switch. -/
theorem enabled_afterInit :
    let p := afterInit os order stamp env files
    C.parseEnabled (getenv p.env (text "EWTS_ENABLED")) = p.logger.loggingEnabled ∧
      Cpp.parseEnabled (getenv p.env (text "EWTS_ENABLED")) = p.logger.loggingEnabled ∧
      Fortran.enabledIn p.env = p.logger.loggingEnabled := by
  intro p
  have hname : Fortran.trim (text "EWTS_ENABLED") = text "EWTS_ENABLED" := by decide
  simp only [getenv, Fortran.enabledIn, Fortran.nonemptyValue, hname, p, afterInit_ewtsEnabled]
  cases (afterInit os order stamp env files).logger.loggingEnabled with
  | true => decide
  | false => decide

/-- All runtimes find the threshold of ngen. -/
theorem Consistent.initialLevel (h : Consistent mods id)
    (hload : configOf os (resultsDir env) = some tree) (hm : tree.modules.getD [] = mods)
    (read : Fortran.ListRead) :
    let p := afterInit os order stamp env files
    let threshold : Int := (p.logger.effectiveLevel id).value
    C.initialLevel p.env id = threshold ∧ Cpp.initialLevel p.env id = threshold ∧
      Fortran.initialLevel read p.env id = threshold := by
  intro p threshold
  obtain ⟨hc, hcpp, hfortran, _⟩ := levelVariable_of_registered h.registered
  have hexported : p.env (levelVariable id) = some (decimal (firstKeyLevel mods id).value) :=
    h.exported hload hm
  have hthreshold : threshold = (firstKeyLevel mods id).value := by
    simp only [threshold, p, effectiveLevel_afterInit hload hm]
  have hne : ((firstKeyLevel mods id).value : Int) ≠ 0 := value_ne_zero h.set
  have hdecimal : decimal (firstKeyLevel mods id).value ≠ [] := decimal_ne_nil _
  rw [hthreshold]
  refine ⟨?_, ?_, ?_⟩
  · simp only [C.initialLevel, hc, getenv, hexported, Option.getD_some, parseLevel_decimal]
    exact if_pos hne
  · simp only [Cpp.initialLevel, hcpp, getenv, hexported, Option.getD_some, cppParseLevel_decimal]
    exact if_pos hne
  · simp only [Fortran.initialLevel, Fortran.nonemptyValue, hfortran, hexported,
      Option.filter_some, hdecimal, ne_eq, not_false_eq_true, decide_true, if_true,
      Option.map_some, Option.getD_some, fortranParseLevel_decimal, hne, if_false]

variable {F : Type} (fl : Floats F)

/-- What a runtime drops, ngen would have dropped. -/
theorem Consistent.delivery_of_drops {w : Forward} (h : Consistent mods w.ewtsId)
    (hload : configOf os (resultsDir env) = some tree) (hm : tree.modules.getD [] = mods)
    {read : Fortran.ListRead} {call : ModuleCall}
    (hdrops : call.Drops read (afterInit os order stamp env files).env w)
    (reader : Json.TreeReader) (clock : Clock) :
    (afterInit os order stamp env files).logger.delivery fl reader (.ofForward clock w) =
      .nothing := by
  obtain ⟨hc, hcpp, hfortran⟩ := enabled_afterInit os order stamp env files
  obtain ⟨hlevelC, hlevelCpp, hlevelFortran⟩ := h.initialLevel hload hm read
  have hrefused : (afterInit os order stamp env files).logger.loggingEnabled = false ∨
      w.level < ((afterInit os order stamp env files).logger.effectiveLevel w.ewtsId).value := by
    cases call with
    | c => rwa [ModuleCall.Drops, hc, hlevelC] at hdrops
    | cpp => rwa [ModuleCall.Drops, hcpp, hlevelCpp] at hdrops
    | fortran => rwa [ModuleCall.Drops, hfortran, hlevelFortran] at hdrops
  have hid : cStr w.ewtsId = w.ewtsId := (levelVariable_of_registered h.registered).2.2.2
  have houtcome : (afterInit os order stamp env files).logger.outcome
      ⟨cStr w.ewtsId, w.level, cStr w.message, clock⟩ = .dropped := by
    rcases hrefused with hoff | hbelow
    · rw [Logger.outcome, if_pos hoff]
    · apply Logger.outcome_below
      rwa [hid]
  rw [Input.ofForward, Logger.delivery, Logger.deliver, houtcome]

end Start

/-! ## Runs -/

section Runs

variable {F : Type} {fl : Floats F} {read : Fortran.ListRead} {bridge : Bool} {order : HashOrder}
  {reader : Json.TreeReader} {start : Process} {s : Coupled} {r : Routes} {j : Journals F}

variable (fl reader) in
/-- Messages with the same strings are delivered alike. -/
theorem Logger.delivery_of_strings (lg : Logger) {w w' : Forward} (h : w.strings = w'.strings)
    (clock : Clock) : lg.delivery fl reader (.ofForward clock w) =
      lg.delivery fl reader (.ofForward clock w') := by
  obtain ⟨ewtsId, level, message⟩ := w
  obtain ⟨ewtsId', level', message'⟩ := w'
  simp only [Forward.strings, Forward.mk.injEq] at h
  obtain ⟨hid, rfl, hmessage⟩ := h
  simp only [Input.ofForward, Logger.delivery, hid, hmessage]

/-- Only a new environment changes that of the journals. -/
theorem Journals.env_accept {dir : Text} {os : Os} {d : Delivery F}
    (h : ∀ env, d ≠ .environment env) : (j.accept dir os d).env = j.env := by
  cases d with
  | environment env => exact absurd rfl (h env)
  | _ => rfl

/-- A call is no environment. -/
theorem Logger.deliver_ne_environment (lg : Logger) (c : Call) (env : Environ) :
    lg.deliver fl reader c ≠ .environment env := by
  unfold Logger.deliver Logger.deliverRecord
  intro h
  split at h
  · cases h
  · split at h <;> cases h
  · cases h

theorem Logger.delivery_ne_environment (lg : Logger) {i : Input F}
    (h : ∀ env, i ≠ .event (.setEnv env)) (env : Environ) :
    lg.delivery fl reader i ≠ .environment env := by
  have hrecord (clock : Clock) (ewtsId : Text) (a : PayloadFields F) :
      lg.deliverRecord clock ewtsId a ≠ .environment env := by
    unfold Logger.deliverRecord
    intro h
    split at h <;> cases h
  cases i with
  | event e =>
    cases e with
    | log c => exact lg.deliver_ne_environment c env
    | ewtsNgenLog clock ewtsId level message =>
      cases ewtsId with
      | none =>
        intro h
        cases h
      | some ewtsId =>
        cases message with
        | none =>
          intro h
          cases h
        | some message => exact lg.deliver_ne_environment _ env
    | logPayload clock ewtsId a => exact hrecord clock ewtsId a
    | setEnv env => exact absurd rfl (h env)
  | entry e expand level message clock =>
    rw [Logger.delivery]
    cases e.call expand level message clock with
    | none =>
      intro h
      cases h
    | some c => exact lg.deliver_ne_environment c env
  | payloadJson clock ewtsId message => exact hrecord clock ewtsId _
  | payloadStatus clock a => exact hrecord clock _ _

/-- A step that leaves the environment alone, and in which modules that are bridged log under
consistent ids. -/
def Op.Consistent (mods : List (Text × Text)) (bridge : Bool) (r : Routes) : Op F → Prop
  | .ngen i => ∀ env, i ≠ .event (.setEnv env)
  | .module _ call => ∀ w ∈ r.sent bridge call, Ngen.Consistent mods w.ewtsId

/-- What is dropped leaves no trace in the journals. -/
theorem Filtered.journals {Drops : Forward → Prop} {sent wanted : Option Forward}
    (h : Filtered Drops sent wanted) {lg : Logger} {os : Os} {clock : Clock}
    (hdrops : ∀ w ∈ wanted, Drops w → lg.delivery fl reader (.ofForward clock w) = .nothing) :
    runFrom (Journals.take fl reader lg) j
        (wanted.toList.map fun w => (os, .ofForward clock w)) =
      runFrom (Journals.take fl reader lg) j
        (sent.toList.map fun w => (os, .ofForward clock w)) := by
  rcases h with hsame | ⟨rfl, hbelow⟩
  · cases sent with
    | none =>
      cases wanted with
      | none => rfl
      | some w => cases hsame
    | some w' =>
      cases wanted with
      | none => cases hsame
      | some w =>
        have hstrings : w.strings = w'.strings := (Option.some.inj hsame).symm
        have hdelivery := lg.delivery_of_strings fl reader hstrings clock
        simp only [Option.toList_some, List.map_cons, List.map_nil, runFrom_cons, runFrom_nil,
          Journals.take, hdelivery]
  · cases wanted with
    | none => rfl
    | some w =>
      simp only [Option.toList_some, Option.toList_none, List.map_cons, List.map_nil,
        runFrom_cons, runFrom_nil, Journals.take, hdrops w rfl (hbelow w rfl)]
      rfl

/-- A coupled process: the outputs of ngen show the journals of what the modules would hand on
without filters. -/
structure Coupled.Follows (fl : Floats F) (read : Fortran.ListRead) (start : Process) (s : Coupled)
    (r : Routes) (j : Journals F) : Prop where
  kept : s.ngen.Kept start
  shows : s.ngen.Shows fl start j
  env : j.env = start.env
  modules : s.modules.Follows read start.env r
  running : s.stopped = false

section Steps

-- A runtime drops only what ngen would drop.
variable {mods : List (Text × Text)} (hopened : start.Opened)
  (hactive : C.isNgenActive start.env = true) (hrank : Fortran.RankReadable read start.env)
  (hdrops : ∀ w : Forward, Ngen.Consistent mods w.ewtsId → ∀ call : ModuleCall,
    call.Drops read start.env w → ∀ clock,
      start.logger.delivery fl reader (.ofForward clock w) = .nothing)
include hopened hactive hrank hdrops

/-- A step of ngen or of a module. -/
theorem Coupled.Follows.step (h : s.Follows fl read start r j) (i : Os × Op F)
    (hi : i.2.Consistent mods bridge r) :
    (s.step read bridge fl order reader i).Follows fl read start (r.step i)
      (runFrom (Journals.take fl reader start.logger) j (r.inputs bridge i)) := by
  obtain ⟨os, op⟩ := i
  have htake (input : Input F) (hinput : ∀ env, input ≠ .event (.setEnv env)) :
      (s.ngen.take fl order reader (os, input)).Kept start ∧
        (s.ngen.take fl order reader (os, input)).Shows fl start
          (j.take fl reader start.logger (os, input)) ∧
        (j.take fl reader start.logger (os, input)).env = start.env := by
    obtain ⟨hkept, hshows⟩ := h.shows.take hopened h.kept order reader (os, input)
    refine ⟨hkept, hshows, ?_⟩
    rw [Journals.take, Journals.env_accept (Logger.delivery_ne_environment _ hinput), h.env]
  rw [Coupled.step, if_neg (by rw [h.running]; exact Bool.false_ne_true)]
  cases op with
  | ngen input =>
    obtain ⟨hkept, hshows, henv⟩ := htake input hi
    exact ⟨hkept, hshows, henv, h.modules, h.running⟩
  | module clock call =>
    obtain ⟨sent, m', hrun, hmodules, hfiltered⟩ := h.modules.run hactive hrank call
    have henv : s.ngen.env = start.env := h.shows.env.trans h.env
    have hwhole : s.modules.run read bridge s.ngen.env call = some (sent, m') := by rw [henv, hrun]
    let arrive (w : Option Forward) : List (Os × Input F) :=
      w.toList.map fun w => (os, .ofForward clock w)
    have hjournals :
        runFrom (Journals.take fl reader start.logger) j (arrive (r.sent bridge call)) =
          runFrom (Journals.take fl reader start.logger) j (arrive sent) :=
      hfiltered.journals fun w hw hbelow => hdrops w (hi w hw) call hbelow clock
    simp only [hwhole, Routes.inputs, Routes.step]
    change Coupled.Follows fl read start _ _
      (runFrom (Journals.take fl reader start.logger) j (arrive (r.sent bridge call)))
    rw [hjournals]
    cases sent with
    | none => exact ⟨h.kept, h.shows, h.env, hmodules, h.running⟩
    | some w =>
      obtain ⟨hkept, hshows, henv⟩ := htake (.ofForward clock w) fun env h => by cases h
      exact ⟨hkept, hshows, henv, hmodules, h.running⟩

variable (order reader) in
/-- So does every run. -/
theorem Coupled.Follows.run (h : s.Follows fl read start r j) {ops : List (Os × Op F)}
    (hops : EachStep Routes.step (fun r i => i.2.Consistent mods bridge r) r ops) :
    (runFrom (Coupled.step read bridge fl order reader) s ops).Follows fl read start
      (runFrom Routes.step r ops) (runFrom (Journals.take fl reader start.logger) j
        (effects Routes.step (Routes.inputs bridge) r ops)) := by
  induction ops generalizing s r j with
  | nil => exact h
  | cons i ops ih =>
    obtain ⟨hi, hrest⟩ := hops
    rw [effects, runFrom_append]
    exact ih (h.step hopened hactive hrank hdrops i hi) hrest

end Steps

end Runs

/-- In unified mode, with a configuration in which every id that is logged under by a bridged
module is consistent: whatever the modules call, in C, C++ and Fortran, the outputs of ngen show
the journals of all that the modules would hand on if their runtimes had no filters. -/
theorem filters_transparent {F : Type} (fl : Floats F) (os : Os) (order : HashOrder)
    (stamp : Timestamp) (env : Environ) (files : Text → Option Text) {tree : ConfigTree}
    {mods : List (Text × Text)} (hload : configOf os (resultsDir env) = some tree)
    (hmods : tree.modules = some mods)
    (hmode : tree.splitLogsByModule.getD false = false)
    (read : Fortran.ListRead) (bridge : Bool)
    (hrank : Fortran.RankReadable read (afterInit os order stamp env files).env)
    (vars : Fortran.Variables) (reader : Json.TreeReader) (ops : List (Os × Op F))
    (hops : EachStep Routes.step (fun r i => i.2.Consistent mods bridge r) .start ops) :
    let start := afterInit os order stamp env files
    let s := runFrom (Coupled.step read bridge fl order reader) ⟨start, .start vars, false⟩ ops
    s.stopped = false ∧ s.ngen.Shows fl start
      (start.accepted fl reader (effects Routes.step (Routes.inputs bridge) .start ops)) := by
  intro start s
  have hm : tree.modules.getD [] = mods := by rw [hmods, Option.getD_some]
  obtain ⟨hopened, hkept, hshows⟩ := shows_afterInit fl os order stamp env files
    ((afterInit_mode hload).trans hmode)
  have hfollows : Coupled.Follows fl read start ⟨start, .start vars, false⟩ .start
      (.start start.env) :=
    ⟨hkept, hshows, rfl, Modules.follows_start vars, rfl⟩
  have hrun := hfollows.run order reader hopened (afterInit_active hload) hrank
    (fun w hid call hdrops clock => hid.delivery_of_drops fl hload hm hdrops reader clock) hops
  exact ⟨hrun.running, hrun.shows⟩

/-- A module in C and one in C++ that share an id, and ngen itself. -/
def sampleOps : List (Os × Op SampleFloat) :=
  let os := levelsOs [(text "pet", text "warn")]
  let c (call : C.Call) : Os × Op SampleFloat :=
    (os, .module default (.c ⟨fun _ => none, default, true, fun _ => true⟩ call))
  [c (.ewtsInit (some (text "pet")) true),
    c (.ewtsLogModule (some (text "pet")) 20 (some (text "quiet"))),
    c (.ewtsLogModule (some (text "pet")) 30 (some (text "dry"))),
    (os, .module default (.cpp ⟨fun _ => none, default, true, fun _ => true, fun _ => true⟩
      (.of (text "pet") true (.log 40 (some (text "soil")))))),
    (os, .ngen (.entry (.bridge (text "NGEN")) (fun _ => none) 20 (text "step") default))]

theorem consistent_pet : Consistent [(text "pet", text "warn")] (text "PET") := by
  refine ⟨by decide, ⟨_, List.mem_singleton_self _, ?_⟩, ?_, by decide⟩
  · unfold resolvesTo
    decide
  · unfold resolvesTo
    decide

/-- A module that logs under a consistent id, if at all. -/
theorem consistent_of_ids {mods : List (Text × Text)} {id : Text} (h : Consistent mods id)
    {bridge : Bool} {r : Routes} {call : ModuleCall}
    (hid : (r.sent bridge call).map Forward.ewtsId ∈ [none, some id]) :
    ∀ w ∈ r.sent bridge call, Consistent mods w.ewtsId := by
  intro w hw
  rw [Option.mem_def.mp hw, Option.map_some, List.mem_cons, List.mem_singleton] at hid
  rcases hid with hnone | hsome
  · cases hnone
  · rwa [Option.some.inj hsome]

theorem filters_transparent_pet :
    let start := afterInit (levelsOs [(text "pet", text "warn")]) insertionOrder default runEnv
      fun _ => none
    let vars : Fortran.Variables := ⟨Fortran.blanks 64, Fortran.blanks 16, -1, 0⟩
    let s := runFrom (Coupled.step .plain true SampleFloat.floats insertionOrder .flat)
      ⟨start, .start vars, false⟩ sampleOps
    s.stopped = false ∧ s.ngen.Shows SampleFloat.floats start
      (start.accepted SampleFloat.floats .flat
        (effects Routes.step (Routes.inputs true) .start sampleOps)) := by
  intro start vars s
  have hrank : start.env (text "EWTS_RANK") = none := by
    simp only [start, afterInit_env, policyOf_loaded _ _ _ (configOf_levelsOs _)]
    rfl
  refine filters_transparent SampleFloat.floats (levelsOs [(text "pet", text "warn")])
    insertionOrder default runEnv (fun _ => none) (configOf_levelsOs _) rfl rfl .plain true ?_ vars
    .flat sampleOps ?_
  · intro v hv
    rw [hrank] at hv
    cases hv
  · refine ⟨?_, ?_, ?_, ?_, fun env h => ?_, trivial⟩
    · exact consistent_of_ids consistent_pet (by decide)
    · exact consistent_of_ids consistent_pet (by decide)
    · exact consistent_of_ids consistent_pet (by decide)
    · exact consistent_of_ids consistent_pet (by decide)
    · cases h

end Ewts.Ngen
