import Ewts.Core.Runs
import Ewts.Runtime.C.Logger
import Mathlib.Data.List.Nodup

/-!
# The logger registry of the C runtime

A call finds the state of its id or creates it at the head of the list. States are
numbered by creation, from the end of the list: the list of what is settled at creation
only grows at its head.
-/

namespace Ewts.C

/-- The calls that use the registry; `none` stands for a null pointer. -/
inductive Call where
  | ewtsInit (ewtsId : Option Text) (ewtsNgen : Bool)
  | ewtsLogModule (ewtsId : Option Text) (level : Int) (msg : Option Text)
  | log (level : Int) (msg : Option Text)
  | ewtsGetLogLevelModule (ewtsId : Option Text)
  | ewtsIsLoggingEnabledModule (ewtsId : Option Text)

namespace Call

/-- The id that a call hands to `get_logger_state`. -/
def ewtsId : Call → Text
  | ewtsInit id _ => id.getD []
  | ewtsLogModule id _ _ => id.getD []
  | log _ _ => text "EWTS"
  | ewtsGetLogLevelModule id => id.getD []
  | ewtsIsLoggingEnabledModule id => id.getD []

/-- The flag that it hands over: only `EwtsInit` sets it. -/
def ewtsNgen : Call → Bool
  | ewtsInit _ ewtsNgen => ewtsNgen
  | _ => false

/-- The registry after a call. -/
def run (host : Host) (loggers : List LoggerState) : Call → List LoggerState
  | ewtsInit id ewtsNgen => C.ewtsInit host loggers (id.getD []) ewtsNgen
  | ewtsLogModule id level msg => (C.ewtsLogModule host loggers (id.getD []) level msg).2
  | log level msg => (C.log host loggers level msg).2
  | ewtsGetLogLevelModule id => (C.ewtsGetLogLevelModule host loggers (id.getD [])).2
  | ewtsIsLoggingEnabledModule id => (C.ewtsIsLoggingEnabledModule host loggers (id.getD [])).2

end Call

/-- A call, with what it meets outside the library. -/
abbrev CallAt := Host × Call

/-- One call. -/
def callStep (loggers : List LoggerState) (call : CallAt) : List LoggerState :=
  call.2.run call.1 loggers

/-- The registry after calls from the start of the process. -/
def registry (calls : List CallAt) : List LoggerState := runFrom callStep [] calls

/-- The number of the state that `get_logger_state` returns, in the order of creation. -/
def stateNumber (loggers : List LoggerState) (ewtsId : Text) : Nat :=
  match loggers.findIdx? fun st => st.ewtsId = loggerKey ewtsId with
  | some i => loggers.length - 1 - i
  | none => loggers.length

/-- The state of a number. -/
def stateAt (loggers : List LoggerState) (k : Nat) : Option LoggerState := loggers.reverse[k]?

/-- What of a state is settled when it is created. -/
structure Settled where
  ewtsId : Text
  ewtsIdPadded : Text
  enabled : Bool
  level : Int

/-- The settled part of a state. -/
def LoggerState.settled (st : LoggerState) : Settled :=
  ⟨st.ewtsId, st.ewtsIdPadded, st.enabled, st.level⟩

/-- The ids of a registry. -/
def ids (loggers : List LoggerState) : List Text := loggers.map LoggerState.ewtsId

/-- What every call keeps: distinct ids, and no state that still has to read the environment. -/
structure WellFormed (loggers : List LoggerState) : Prop where
  nodup : (ids loggers).Nodup
  initialized : ∀ st ∈ loggers, st.initialized = true

/-! ## Writing a state back -/

section Store

variable {loggers : List LoggerState} {st : LoggerState}

/-- A view that the state shares with the one it replaces stays. -/
theorem map_storeState {β : Type} {f : LoggerState → β}
    (h : ∀ s ∈ loggers, s.ewtsId = st.ewtsId → f s = f st) :
    (storeState st loggers).map f = loggers.map f := by
  induction loggers with
  | nil => rfl
  | cons s loggers ih =>
    have hs := h s (List.mem_cons_self ..)
    rw [storeState]
    split
    · rename_i heq
      rw [List.map_cons, List.map_cons, hs heq]
    · rw [List.map_cons, List.map_cons, ih fun t ht => h t (List.mem_cons_of_mem s ht)]

theorem ids_storeState : ids (storeState st loggers) = ids loggers :=
  map_storeState fun _ _ h => h

/-- The other states stay. -/
theorem mem_storeState {s : LoggerState} (hs : s ∈ storeState st loggers)
    (hnodup : (ids loggers).Nodup) : s = st ∨ s ∈ loggers ∧ s.ewtsId ≠ st.ewtsId := by
  induction loggers with
  | nil => cases hs
  | cons t loggers ih =>
    rw [ids, List.map_cons, List.nodup_cons] at hnodup
    rw [storeState] at hs
    split at hs
    · rename_i heq
      rcases List.mem_cons.mp hs with rfl | hs
      · exact Or.inl rfl
      · refine Or.inr ⟨List.mem_cons_of_mem t hs, fun h => hnodup.1 ?_⟩
        rw [heq, ← h]
        exact List.mem_map_of_mem hs
    · rename_i hne
      rcases List.mem_cons.mp hs with rfl | hs
      · exact Or.inr ⟨List.mem_cons_self .., hne⟩
      · rcases ih hs hnodup.2 with h | ⟨h, hid⟩
        · exact Or.inl h
        · exact Or.inr ⟨List.mem_cons_of_mem t h, hid⟩

/-- Of two states of one id the later one is stored. -/
theorem storeState_storeState {st' : LoggerState} (h : st'.ewtsId = st.ewtsId) :
    storeState st' (storeState st loggers) = storeState st' loggers := by
  induction loggers with
  | nil => rfl
  | cons s loggers ih =>
    by_cases hs : s.ewtsId = st.ewtsId
    · rw [storeState, if_pos hs, storeState, if_pos h.symm, storeState, if_pos (hs.trans h.symm)]
    · have hs' : s.ewtsId ≠ st'.ewtsId := fun heq => hs (heq.trans h)
      rw [storeState, if_neg hs, storeState, if_neg hs', storeState, if_neg hs', ih]

/-- A state is stored where its id is found. -/
theorem getElem?_storeState {i : Nat}
    (h : loggers.findIdx? (fun s => s.ewtsId = st.ewtsId) = some i) :
    (storeState st loggers)[i]? = some st := by
  induction loggers generalizing i with
  | nil => cases h
  | cons s loggers ih =>
    rw [List.findIdx?_cons] at h
    rw [storeState]
    split at h
    · rename_i heq
      cases h
      rw [if_pos (by simpa using heq)]
      rfl
    · rename_i hne
      obtain ⟨j, hj, rfl⟩ := Option.map_eq_some_iff.mp h
      rw [if_neg (by simpa using hne), List.getElem?_cons_succ]
      exact ih hj

theorem length_storeState : (storeState st loggers).length = loggers.length := by
  have hids : ids (storeState st loggers) = ids loggers := ids_storeState
  simpa [ids] using congrArg List.length hids

end Store

/-- Positions count from the front, numbers from the end. -/
theorem getElem?_stateNumber {β : Type} {loggers : List LoggerState} {ewtsId : Text} {i : Nat}
    (hidx : loggers.findIdx? (fun st => st.ewtsId = loggerKey ewtsId) = some i) {l : List β}
    (hlen : l.length = loggers.length) :
    l.reverse[stateNumber loggers ewtsId]? = l[i]? := by
  have hlt : i < loggers.length := (List.findIdx?_eq_some_iff_getElem.mp hidx).1
  have hpos : l.length - 1 - (loggers.length - 1 - i) = i := by omega
  rw [stateNumber, hidx]
  simp only
  rw [List.getElem?_reverse (by omega), hpos]

@[simp] theorem ewtsId_initLoggerState {env : Environ} {st : LoggerState} :
    (initLoggerState env st).ewtsId = st.ewtsId := by
  unfold initLoggerState
  split <;> rfl

/-- A lookup returns a state of its key. -/
theorem ewtsId_getLoggerState (env : Environ) (loggers : List LoggerState) (ewtsId : Text)
    (ewtsNgen : Bool) :
    (getLoggerState env loggers ewtsId ewtsNgen).1.ewtsId = loggerKey ewtsId := by
  rw [getLoggerState]
  split
  · rename_i st hfind
    exact ewtsId_initLoggerState.trans (by simpa using List.find?_some hfind)
  · exact ewtsId_initLoggerState.trans (take_loggerKey ewtsId)

/-- The number of a lookup is the number of the state that it returns. -/
theorem stateAt_getLoggerState (env : Environ) (loggers : List LoggerState) (ewtsId : Text)
    (ewtsNgen : Bool) : stateAt (getLoggerState env loggers ewtsId ewtsNgen).2
      (stateNumber loggers ewtsId) = some (getLoggerState env loggers ewtsId ewtsNgen).1 := by
  have hkey := ewtsId_getLoggerState env loggers ewtsId ewtsNgen
  rw [getLoggerState] at hkey ⊢
  cases hidx : loggers.findIdx? fun st => st.ewtsId = loggerKey ewtsId with
  | none =>
    have hfind : loggers.find? (fun st => st.ewtsId = loggerKey ewtsId) = none := by
      rw [List.find?_eq_none]
      simpa using List.findIdx?_eq_none_iff.mp hidx
    rw [hfind, stateNumber, hidx, stateAt]
    simp
  | some i =>
    obtain ⟨hlt, hi, hbefore⟩ := List.findIdx?_eq_some_iff_getElem.mp hidx
    have hfind : loggers.find? (fun st => st.ewtsId = loggerKey ewtsId) = some loggers[i] := by
      rw [List.find?_eq_some_iff_getElem]
      exact ⟨hi, i, hlt, rfl, fun j hj => by simpa using hbefore j hj⟩
    rw [hfind] at hkey
    rw [hfind, stateAt, getElem?_stateNumber hidx length_storeState]
    apply getElem?_storeState
    rwa [hkey]

/-! ## One call -/

section Call

variable {loggers : List LoggerState}

/-- Opening the standalone file changes nothing else. -/
theorem openStandaloneFile_eq (env : Environ) (opens : Text → Bool) (now : Timestamp)
    (st : LoggerState) :
    ∃ file, openStandaloneFile env opens now st = { st with file := file } := by
  unfold openStandaloneFile
  split
  · exact ⟨st.file, rfl⟩
  · simp only
    split
    · exact ⟨_, rfl⟩
    · split <;> split <;> exact ⟨_, rfl⟩

/-- What a standalone state writes are the lines of the message. -/
theorem vLogWithState_standalone {env : Environ} {linked : Bool} {opens : Text → Bool}
    {now : Timestamp} {st : LoggerState} {level : Int} {msg : Text} {file : Option Sink}
    {lines : List Text}
    (h : (vLogWithState env linked opens now st level msg).1 = some (.standalone file lines)) :
    lines = standaloneLines now st.ewtsIdPadded level msg := by
  obtain ⟨opened, hopen⟩ := openStandaloneFile_eq env opens now st
  unfold vLogWithState at h
  split at h
  · cases h
  · split at h
    · cases h
    · rw [hopen] at h
      cases h
      rfl

theorem vLogWithState_eq (host : Host) (st : LoggerState) (level : Int) (msg : Text) :
    ∃ file, (vLogWithState host.env host.linked host.opens host.now st level msg).2 =
      { st with file := file } := by
  unfold vLogWithState
  split
  · exact ⟨st.file, rfl⟩
  · split
    · exact ⟨st.file, rfl⟩
    · exact openStandaloneFile_eq host.env host.opens host.now st

/-- A call looks its state up; only a message writes to it again, and only to its file. -/
theorem callStep_eq (loggers : List LoggerState) (call : CallAt) :
    let r := getLoggerState call.1.env loggers call.2.ewtsId call.2.ewtsNgen
    callStep loggers call = r.2 ∨
      ∃ file, callStep loggers call = storeState { r.1 with file := file } r.2 := by
  obtain ⟨host, call⟩ := call
  have hmodule : ∀ (id : Text) (level : Int) (msg : Option Text),
      let r := getLoggerState host.env loggers id false
      (ewtsLogModule host loggers id level msg).2 = r.2 ∨
        ∃ file, (ewtsLogModule host loggers id level msg).2 =
          storeState { r.1 with file := file } r.2 := by
    intro id level msg
    cases msg with
    | none => exact Or.inl rfl
    | some msg =>
      obtain ⟨file, hfile⟩ :=
        vLogWithState_eq host (getLoggerState host.env loggers id false).1 level msg
      refine Or.inr ⟨file, ?_⟩
      rw [← hfile]
      rfl
  cases call with
  | ewtsInit id ewtsNgen => exact Or.inl rfl
  | ewtsLogModule id level msg => exact hmodule (id.getD []) level msg
  | log level msg => exact hmodule (text "EWTS") level msg
  | ewtsGetLogLevelModule id => exact Or.inl rfl
  | ewtsIsLoggingEnabledModule id => exact Or.inl rfl

/-- A call of a known id only touches the route flag and the file of its state; any other
call puts a new state in front. -/
theorem callStep_cases (h : WellFormed loggers) (call : CallAt) :
    (∃ st ∈ loggers, st.ewtsId = loggerKey call.2.ewtsId ∧ ∃ file,
      callStep loggers call =
        storeState { st with useNgen := st.useNgen || call.2.ewtsNgen, file := file } loggers) ∨
    ((∀ st ∈ loggers, st.ewtsId ≠ loggerKey call.2.ewtsId) ∧ ∃ st,
      callStep loggers call = st :: loggers ∧ st.ewtsId = loggerKey call.2.ewtsId ∧
        st.useNgen = call.2.ewtsNgen ∧ st.initialized = true) := by
  have hstep := callStep_eq loggers call
  cases hfind : loggers.find? fun st => st.ewtsId = loggerKey call.2.ewtsId with
  | some st =>
    have hmem := List.mem_of_find?_eq_some hfind
    have hid : st.ewtsId = loggerKey call.2.ewtsId := by simpa using List.find?_some hfind
    have hget : getLoggerState call.1.env loggers call.2.ewtsId call.2.ewtsNgen =
        ({ st with useNgen := st.useNgen || call.2.ewtsNgen },
          storeState { st with useNgen := st.useNgen || call.2.ewtsNgen } loggers) := by
      rw [getLoggerState, hfind]
      simp only [initLoggerState, h.initialized st hmem, ite_true]
    rw [hget] at hstep
    refine Or.inl ⟨st, hmem, hid, ?_⟩
    rcases hstep with hstep | ⟨file, hstep⟩
    · exact ⟨st.file, hstep⟩
    · refine ⟨file, hstep.trans ?_⟩
      exact storeState_storeState rfl
  | none =>
    have hnew : ∀ st ∈ loggers, st.ewtsId ≠ loggerKey call.2.ewtsId := by
      simpa using List.find?_eq_none.mp hfind
    rw [getLoggerState, hfind] at hstep
    refine Or.inr ⟨hnew, ?_⟩
    rcases hstep with hstep | ⟨file, hstep⟩
    · exact ⟨_, hstep, take_loggerKey _, rfl, rfl⟩
    · rw [storeState, if_pos rfl] at hstep
      exact ⟨_, hstep, take_loggerKey _, rfl, rfl⟩

/-- No two states share an id. -/
theorem WellFormed.step (h : WellFormed loggers) (call : CallAt) :
    WellFormed (callStep loggers call) := by
  obtain ⟨st, hmem, hid, file, heq⟩ | ⟨hnew, st, heq, hid, _, hinit⟩ := callStep_cases h call
  · rw [heq]
    constructor
    · rw [ids_storeState]
      exact h.nodup
    · intro s hs
      rcases mem_storeState hs h.nodup with rfl | ⟨hs, _⟩
      · exact h.initialized st hmem
      · exact h.initialized s hs
  · rw [heq]
    constructor
    · rw [ids, List.map_cons, List.nodup_cons]
      refine ⟨fun hin => ?_, h.nodup⟩
      obtain ⟨s, hs, hsid⟩ := List.mem_map.mp hin
      exact hnew s hs (hsid.trans hid)
    · exact List.forall_mem_cons.mpr ⟨hinit, h.initialized⟩

/-- States of one id are one state. -/
theorem WellFormed.eq_of_ewtsId (h : WellFormed loggers) {s t : LoggerState} (hs : s ∈ loggers)
    (ht : t ∈ loggers) (heq : s.ewtsId = t.ewtsId) : s = t :=
  List.inj_on_of_nodup_map h.nodup hs ht heq

/-- The flag of an id is that of its state. -/
theorem WellFormed.useNgen_iff (h : WellFormed loggers) {st : LoggerState} (hst : st ∈ loggers) :
    st.useNgen = true ↔ ∃ s ∈ loggers, s.ewtsId = st.ewtsId ∧ s.useNgen = true := by
  constructor
  · exact fun huse => ⟨st, hst, rfl, huse⟩
  · rintro ⟨s, hs, hid, huse⟩
    rwa [← h.eq_of_ewtsId hs hst hid]

/-- What is settled stays, and at most one state comes before it. -/
theorem settled_suffix_step (h : WellFormed loggers) (call : CallAt) :
    loggers.map LoggerState.settled <:+ (callStep loggers call).map LoggerState.settled := by
  obtain ⟨st, hmem, _, file, heq⟩ | ⟨_, st, heq, _⟩ := callStep_cases h call
  · have hsame : (callStep loggers call).map LoggerState.settled =
        loggers.map LoggerState.settled := by
      rw [heq]
      apply map_storeState
      intro s hs hid
      rw [h.eq_of_ewtsId hs hmem hid]
      rfl
    rw [hsame]
  · rw [heq]
    exact List.suffix_cons _ _

/-- After a call the state of its number has its id. -/
theorem ids_stateNumber (loggers : List LoggerState) (call : CallAt) :
    (ids (callStep loggers call)).reverse[stateNumber loggers call.2.ewtsId]? =
      some (loggerKey call.2.ewtsId) := by
  have hat := stateAt_getLoggerState call.1.env loggers call.2.ewtsId call.2.ewtsNgen
  have hids : ids (callStep loggers call) =
      ids (getLoggerState call.1.env loggers call.2.ewtsId call.2.ewtsNgen).2 := by
    rcases callStep_eq loggers call with heq | ⟨file, heq⟩
    · rw [heq]
    · rw [heq, ids_storeState]
  rw [hids, ids, ← List.map_reverse, List.getElem?_map, ← stateAt, hat, Option.map_some,
    ewtsId_getLoggerState]

/-- The flag of a state is passed on, and set by a call of its id. -/
theorem useNgen_step (h : WellFormed loggers) (call : CallAt) {st : LoggerState}
    (hst : st ∈ callStep loggers call) :
    st.useNgen = true ↔ (∃ s ∈ loggers, s.ewtsId = st.ewtsId ∧ s.useNgen = true) ∨
      loggerKey call.2.ewtsId = st.ewtsId ∧ call.2.ewtsNgen = true := by
  obtain ⟨t, hmem, hid, file, heq⟩ | ⟨hnew, t, heq, hid, huse, _⟩ := callStep_cases h call
  · rw [heq] at hst
    rcases mem_storeState hst h.nodup with rfl | ⟨hst, hne⟩
    · simp only [Bool.or_eq_true, ← hid, true_and]
      exact or_congr_left (h.useNgen_iff hmem)
    · have hother : loggerKey call.2.ewtsId ≠ st.ewtsId := fun heq => hne (heq ▸ hid.symm)
      simp only [hother, false_and, or_false]
      exact h.useNgen_iff hst
  · rw [heq] at hst
    rcases List.mem_cons.mp hst with rfl | hst
    · simp only [huse, hid, true_and]
      refine ⟨Or.inr, ?_⟩
      rintro (⟨s, hs, hsid, _⟩ | hflag)
      · exact absurd hsid (hnew s hs)
      · exact hflag
    · have hother : loggerKey call.2.ewtsId ≠ st.ewtsId := (hnew st hst).symm
      simp only [hother, false_and, or_false]
      exact h.useNgen_iff hst

end Call

/-! ## Runs -/

section Runs

variable (calls more : List CallAt)

theorem registry_append :
    registry (calls ++ more) = runFrom callStep (registry calls) more :=
  runFrom_append more

theorem wellFormed_registry : WellFormed (registry calls) := by
  apply runFrom_invariant
  · exact fun _ call _ h => h.step call
  · exact ⟨List.nodup_nil, by simp⟩

/-- No state disappears, and what is settled stays. -/
theorem settled_suffix_registry : (registry calls).map LoggerState.settled <:+
    (registry (calls ++ more)).map LoggerState.settled := by
  rw [registry_append]
  apply And.right
  apply runFrom_invariant (I := fun loggers => WellFormed loggers ∧
    (registry calls).map LoggerState.settled <:+ loggers.map LoggerState.settled)
  · rintro loggers call _ ⟨hwf, hsuffix⟩
    exact ⟨hwf.step call, hsuffix.trans (settled_suffix_step hwf call)⟩
  · exact ⟨wellFormed_registry calls, List.suffix_refl _⟩

/-- The id under a number stays. -/
theorem ids_registry_append {k : Nat} {key : Text}
    (h : (ids (registry calls)).reverse[k]? = some key) :
    (ids (registry (calls ++ more))).reverse[k]? = some key := by
  have hsuffix : ids (registry calls) <:+ ids (registry (calls ++ more)) := by
    have h := (settled_suffix_registry calls more).map Settled.ewtsId
    rw [List.map_map, List.map_map] at h
    exact h
  obtain ⟨new, hnew⟩ := hsuffix.reverse
  have hlt : k < (ids (registry calls)).reverse.length :=
    (List.getElem?_eq_some_iff.mp h).1
  rw [← hnew, List.getElem?_append_left hlt]
  exact h

variable {calls}

/-- The state that a call has got keeps its number and the id of the call. -/
theorem ids_of_call {done : List CallAt} {call : CallAt} (h : done ++ [call] <+: calls) :
    (ids (registry calls)).reverse[stateNumber (registry done) call.2.ewtsId]? =
      some (loggerKey call.2.ewtsId) := by
  obtain ⟨more, rfl⟩ := h
  apply ids_registry_append
  rw [registry_append]
  exact ids_stateNumber (registry done) call

/-- Different numbers have different ids. -/
theorem eq_of_ids_eq {i j : Nat} {key : Text}
    (hi : (ids (registry calls)).reverse[i]? = some key)
    (hj : (ids (registry calls)).reverse[j]? = some key) : i = j := by
  have hnodup := List.nodup_reverse.mpr (wellFormed_registry calls).nodup
  exact (List.getElem?_inj (List.getElem?_eq_some_iff.mp hi).1 hnodup).mp (hi.trans hj.symm)

/-- A state routes to ngen exactly when some call of its id asked for it. -/
theorem useNgen_registry {st : LoggerState} (hst : st ∈ registry calls) :
    st.useNgen = true ↔
      ∃ call ∈ calls, loggerKey call.2.ewtsId = st.ewtsId ∧ call.2.ewtsNgen = true := by
  induction calls using List.reverseRecOn generalizing st with
  | nil => cases hst
  | append_singleton calls call ih =>
    rw [registry_append] at hst
    rw [useNgen_step (wellFormed_registry calls) call hst]
    simp only [List.mem_append, List.mem_singleton, or_and_right, exists_or, exists_eq_left]
    apply or_congr_left
    constructor
    · rintro ⟨s, hs, hsid, huse⟩
      rw [← hsid]
      exact (ih hs).mp huse
    · rintro ⟨c, hc, hcid, hflag⟩
      obtain ⟨done, rest, rfl⟩ := List.append_of_mem hc
      have hdone : done ++ [c] <+: done ++ c :: rest := ⟨rest, by simp⟩
      have hkey := ids_of_call hdone
      have hmem := List.mem_reverse.mp (List.mem_of_getElem? hkey)
      obtain ⟨s, hs, hsid⟩ := List.mem_map.mp hmem
      exact ⟨s, hs, hsid.trans hcid, (ih hs).mpr ⟨c, hc, hsid.symm ▸ rfl, hflag⟩⟩

end Runs

/-- The id that a string stands for; null and empty strings stand for `EWTS`. -/
def normalId (ewtsId : Text) : Text :=
  (toupperAll (trim (if cStr ewtsId = [] then text "EWTS" else cStr ewtsId))).take 63

/-- The buffer of `upper_copy` is larger than that of the key. -/
theorem loggerKey_eq_normalId (ewtsId : Text) : loggerKey ewtsId = normalId ewtsId := by
  have hstr : cStr (if cStr ewtsId = [] then text "EWTS" else ewtsId) =
      if cStr ewtsId = [] then text "EWTS" else cStr ewtsId := by
    split
    · rfl
    · rfl
  rw [loggerKey, normalId, upperCopy, trimCopy, hstr, toupperAll, List.map_take, List.take_take]
  rfl

/-- Only `EwtsInit` asks for ngen. -/
theorem Call.ewtsNgen_iff {call : Call} :
    call.ewtsNgen = true ↔ ∃ id, call = .ewtsInit id true := by
  cases call <;> simp [ewtsNgen]

/-- Over any run, with any environment at each call: ids are distinct, calls share a state
exactly when their ids normalise to the same text, a state is kept as it was settled, and it
routes to ngen exactly when an `EwtsInit` that got it has asked for it. -/
theorem registry_consistent (calls more : List CallAt) :
    (ids (registry calls)).Nodup ∧
    (∀ done call done' call', done ++ [call] <+: calls → done' ++ [call'] <+: calls →
      (stateNumber (registry done) call.2.ewtsId = stateNumber (registry done') call'.2.ewtsId ↔
        normalId call.2.ewtsId = normalId call'.2.ewtsId)) ∧
    (∀ k st, stateAt (registry calls) k = some st →
      ∃ st', stateAt (registry (calls ++ more)) k = some st' ∧ st'.settled = st.settled) ∧
    (∀ k st, stateAt (registry calls) k = some st →
      (st.useNgen = true ↔ ∃ done host id, done ++ [(host, .ewtsInit id true)] <+: calls ∧
        stateNumber (registry done) (id.getD []) = k)) := by
  refine ⟨(wellFormed_registry calls).nodup, ?_, ?_, ?_⟩
  · intro done call done' call' h h'
    have hcall := ids_of_call h
    have hcall' := ids_of_call h'
    rw [← loggerKey_eq_normalId, ← loggerKey_eq_normalId]
    constructor
    · intro heq
      rw [heq, hcall'] at hcall
      exact (Option.some.inj hcall).symm
    · intro heq
      rw [heq] at hcall
      exact eq_of_ids_eq hcall hcall'
  · intro k st hst
    obtain ⟨new, hnew⟩ := (settled_suffix_registry calls more).reverse
    have hk : ((registry calls).map LoggerState.settled).reverse[k]? = some st.settled := by
      rw [← List.map_reverse, List.getElem?_map]
      exact congrArg (Option.map LoggerState.settled) hst
    have hlt := (List.getElem?_eq_some_iff.mp hk).1
    rw [← List.getElem?_append_left hlt, hnew, ← List.map_reverse, List.getElem?_map] at hk
    exact Option.map_eq_some_iff.mp hk
  · intro k st hst
    have hmem : st ∈ registry calls := List.mem_reverse.mp (List.mem_of_getElem? hst)
    have hk : (ids (registry calls)).reverse[k]? = some st.ewtsId := by
      rw [ids, ← List.map_reverse, List.getElem?_map]
      exact congrArg (Option.map LoggerState.ewtsId) hst
    rw [useNgen_registry hmem]
    constructor
    · rintro ⟨⟨host, call⟩, hc, hid, hflag⟩
      obtain ⟨id, rfl⟩ := Call.ewtsNgen_iff.mp hflag
      obtain ⟨done, rest, rfl⟩ := List.append_of_mem hc
      have hdone : done ++ [(host, .ewtsInit id true)] <+:
          done ++ (host, .ewtsInit id true) :: rest := ⟨rest, by simp⟩
      have hcall := ids_of_call hdone
      rw [hid] at hcall
      exact ⟨done, host, id, hdone, eq_of_ids_eq hcall hk⟩
    · rintro ⟨done, host, id, hdone, rfl⟩
      have hcall := ids_of_call hdone
      refine ⟨(host, .ewtsInit id true), hdone.subset (by simp), ?_, rfl⟩
      exact Option.some.inj (hcall.symm.trans hk)

end Ewts.C
