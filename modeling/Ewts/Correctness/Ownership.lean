import Ewts.Core.Runs
import Ewts.Runtime.Python.Registry

/-!
# Who owns a standard logger

Every construction of an `EwtsLogger` takes the standard logger of its name over, but only
`get_logger` enters the new object into the cache. The cache and the standard loggers stay
in step exactly as long as no existing logger is configured for an id that is cached.
-/

namespace Ewts.Python

namespace Registry

/-- The standard logger of an id forwards to one object and has its threshold. -/
structure Owns (r : Registry) (id : Text) (ref : Nat) : Prop where
  handler : (r.pyLoggers (pyName id)).handlers.filter Handler.isEwts = [.ewts ref]
  level : ∃ o, r.objects[ref]? = some o ∧ (r.pyLoggers (pyName id)).level = o.minLevel

/-- Every cached object owns the standard logger of its id. -/
def Owned (r : Registry) : Prop := ∀ id ref, r.cache id = some ref → r.Owns id ref

/-- Cached objects exist under their own ids, which are in upper case. -/
def Valid (u : Unicode) (r : Registry) : Prop :=
  ∀ id ref, r.cache id = some ref →
    u.upper id = id ∧ ∃ o, r.objects[ref]? = some o ∧ o.ewtsId = id

/-- A call of the module's functions, or of `setLevel` on what `get_logger` returns. -/
inductive Call where
  | getLogger (s : Text)
  | resetLogger (s : Text)
  | setupLogger (s : Text) (args : SetupArgs)
  | configureExistingLogger (name : Text)
  | setLevel (s : Text) (level : Int)

/-- The state after a call in its surroundings. -/
def next (u : Unicode) (r : Registry) (c : Host × Call) : Registry :=
  match c.2 with
  | .getLogger s => (r.getLogger u c.1 s).2
  | .resetLogger s => r.resetLogger u s
  | .setupLogger s args => (r.setupLogger u c.1 s args).2
  | .configureExistingLogger name => r.configureExistingLogger u c.1 name
  | .setLevel s level =>
    match r.getLogger u c.1 s with
    | (none, r') => r'
    | (some ref, r') => r'.setLevel ref level

/-- A call that takes no standard logger away from a cached object: an existing logger is
configured for an id without one, or the construction raises. -/
def Leaves (u : Unicode) (r : Registry) (c : Host × Call) : Prop :=
  match c.2 with
  | .configureExistingLogger name =>
    name ∈ knownIds → r.cache name = none ∨ r.construct u c.1 name = none
  | _ => True

/-! ## Names -/

private theorem upper_of_fixed (u : Unicode) {s : Text}
    (h : ∀ c ∈ s, c.val < 0x80 ∧ c.toUpper = c) : u.upper s = s := by
  calc u.upper s = s.map CodePoint.toUpper := u.upper_of_ascii fun c hc => (h c hc).1
    _ = s.map id := List.map_congr_left fun c hc => (h c hc).2
    _ = s := List.map_id s

theorem knownIds_upper (u : Unicode) {id : Text} (h : id ∈ knownIds) : u.upper id = id := by
  apply upper_of_fixed
  revert id
  decide

/-- A resolved id is in upper case. -/
theorem resolveEwtsId_upper (u : Unicode) (s : Text) :
    u.upper (resolveEwtsId u s) = resolveEwtsId u s := by
  unfold resolveEwtsId
  split
  · apply upper_of_fixed
    decide
  · cases h : keyToEwtsId.lookup (strip s) with
    | none =>
      rw [Option.getD_none]
      exact u.upper_upper_text _
    | some id =>
      rw [Option.getD_some]
      obtain ⟨l₁, l₂, hl, _⟩ := List.lookup_eq_some_iff.mp h
      apply knownIds_upper
      apply List.mem_map.mpr
      exact ⟨(strip s, id), by rw [hl]; simp, rfl⟩

/-- The name of a wrapped logger is no EWTS id: it starts with a small letter. -/
theorem ne_pyName {u : Unicode} {id : Text} (h : u.upper id = id) (other : Text) :
    id ≠ pyName other := by
  rintro rfl
  have hhead : (u.upper (pyName other)).head? = some (ch 'E') := by
    unfold Unicode.upper pyName
    change (u.upperChar (ch 'e') ++ _).head? = _
    rw [u.upper_ascii _ (by decide)]
    rfl
  rw [h] at hhead
  revert hhead
  change ¬ some (ch 'e') = some (ch 'E')
  decide

theorem pyName_inj {id id' : Text} : pyName id = pyName id' ↔ id = id' :=
  List.append_right_inj _

/-! ## Construction -/

section Construction

variable {u : Unicode} {host : Host} {r : Registry}

theorem getElem?_wire_of_some (o : EwtsObject) {ref : Nat} {o' : EwtsObject}
    (h : r.objects[ref]? = some o') : (r.wire o).objects[ref]? = some o' := by
  have hlt : ref < r.objects.length := (List.getElem?_eq_some_iff.mp h).1
  change (r.objects ++ [o])[ref]? = some o'
  rw [List.getElem?_append_left hlt, h]

theorem pyLoggers_wire_other (o : EwtsObject) {name : Text} (h : name ≠ pyName o.ewtsId) :
    (r.wire o).pyLoggers name = r.pyLoggers name :=
  Function.update_of_ne h ..

/-- The new object owns the standard logger of its id. -/
theorem owns_wire (o : EwtsObject) : (r.wire o).Owns o.ewtsId r.objects.length := by
  have hpy : (r.wire o).pyLoggers (pyName o.ewtsId) =
      { r.pyLoggers (pyName o.ewtsId) with
        level := o.minLevel
        propagate := false
        handlers := (r.pyLoggers (pyName o.ewtsId)).handlers.filter (!·.isEwts) ++
          [.ewts r.objects.length] } := Function.update_self ..
  constructor
  · have hnone : ((r.pyLoggers (pyName o.ewtsId)).handlers.filter (!·.isEwts)).filter
        Handler.isEwts = [] := by
      apply List.filter_eq_nil_iff.mpr
      intro h hh
      simpa using (List.mem_filter.mp hh).2
    rw [hpy]
    simp only [List.filter_append, hnone, List.nil_append]
    rfl
  · exact ⟨o, getElem?_wire_new o, by rw [hpy]⟩

/-- Ownership is a matter of one standard logger and one object. -/
theorem Owns.frame {r' : Registry} {id : Text} {ref : Nat} (h : r.Owns id ref)
    (hpy : r'.pyLoggers (pyName id) = r.pyLoggers (pyName id))
    (hobj : ∀ o, r.objects[ref]? = some o → r'.objects[ref]? = some o) : r'.Owns id ref := by
  obtain ⟨o, ho, hlevel⟩ := h.level
  exact ⟨by rw [hpy, h.handler], o, hobj o ho, by rw [hpy, hlevel]⟩

/-- An object of another id leaves an owner alone. -/
theorem Owns.wire {id : Text} {ref : Nat} (h : r.Owns id ref) {o : EwtsObject}
    (hid : o.ewtsId ≠ id) : (r.wire o).Owns id ref := by
  apply h.frame
  · exact pyLoggers_wire_other o fun heq => hid (pyName_inj.mp heq).symm
  · exact fun o' ho' => getElem?_wire_of_some o ho'

/-- References stay valid when objects are added. -/
theorem Valid.wire (h : r.Valid u) (o : EwtsObject) : (r.wire o).Valid u := by
  intro id ref href
  obtain ⟨hid, o', ho', hown⟩ := h id ref href
  exact ⟨hid, o', getElem?_wire_of_some o ho', hown⟩

end Construction

/-! ## Calls -/

section Calls

variable {u : Unicode} {r : Registry}

/-- A logger that is constructed for the cache owns its standard logger. -/
theorem cacheWire_spec {o : EwtsObject} (hid : u.upper o.ewtsId = o.ewtsId) (hv : r.Valid u) :
    let r' := { r.wire o with cache := Function.update r.cache o.ewtsId (some r.objects.length) }
    r'.Valid u ∧ (r.Owned → r'.Owned) := by
  intro r'
  have hcache : ∀ id ref, r'.cache id = some ref →
      id = o.ewtsId ∧ ref = r.objects.length ∨ id ≠ o.ewtsId ∧ r.cache id = some ref := by
    intro id ref href
    by_cases heq : id = o.ewtsId
    · subst heq
      have hnew : r'.cache o.ewtsId = some r.objects.length := Function.update_self ..
      rw [hnew] at href
      exact Or.inl ⟨rfl, (Option.some.inj href).symm⟩
    · have hold : r'.cache id = r.cache id := Function.update_of_ne heq ..
      exact Or.inr ⟨heq, hold ▸ href⟩
  constructor
  · intro id ref href
    rcases hcache id ref href with ⟨rfl, rfl⟩ | ⟨_, hold⟩
    · exact ⟨hid, o, getElem?_wire_new o, rfl⟩
    · exact hv.wire o id ref hold
  · intro ho id ref href
    rcases hcache id ref href with ⟨rfl, rfl⟩ | ⟨hne, hold⟩
    · exact (owns_wire o).frame rfl fun _ h => h
    · exact ((ho id ref hold).wire fun h => hne h.symm).frame rfl fun _ h => h

theorem getLogger_spec (host : Host) (s : Text) (hv : r.Valid u) :
    (r.getLogger u host s).2.Valid u ∧ (r.Owned → (r.getLogger u host s).2.Owned) ∧
      ∀ ref, (r.getLogger u host s).1 = some ref →
        (r.getLogger u host s).2.cache (resolveEwtsId u s) = some ref := by
  have hfix := resolveEwtsId_upper u s
  unfold getLogger
  simp only
  cases hcached : r.cache (resolveEwtsId u s) with
  | some ref =>
    refine ⟨hv, id, ?_⟩
    rintro ref' h
    rw [← h]
    exact hcached
  | none =>
    cases hnew : r.construct u host (resolveEwtsId u s) with
    | none => exact ⟨hv, id, by simp⟩
    | some o =>
      have hid : o.ewtsId = resolveEwtsId u s := (construct_logger hnew).1.trans hfix
      have hspec := cacheWire_spec (r := r) (o := o) (by rw [hid, hfix]) hv
      simp only [hid] at hspec
      refine ⟨hspec.1, hspec.2, ?_⟩
      rintro ref h
      rw [← h]
      exact Function.update_self ..

theorem resetLogger_spec (s : Text) (hv : r.Valid u) :
    (r.resetLogger u s).Valid u ∧ (r.Owned → (r.resetLogger u s).Owned) := by
  have hcache : ∀ id ref, (r.resetLogger u s).cache id = some ref →
      id ≠ resolveEwtsId u s ∧ r.cache id = some ref := by
    intro id ref href
    by_cases heq : id = resolveEwtsId u s
    · subst heq
      have hnone : (r.resetLogger u s).cache (resolveEwtsId u s) = none :=
        Function.update_self ..
      rw [hnone] at href
      cases href
    · have hold : (r.resetLogger u s).cache id = r.cache id := Function.update_of_ne heq ..
      exact ⟨heq, hold ▸ href⟩
  constructor
  · intro id ref href
    exact hv id ref (hcache id ref href).2
  · intro ho id ref href
    obtain ⟨hne, hold⟩ := hcache id ref href
    apply (ho id ref hold).frame
    · -- Neither the wrapped logger of the id nor a logger named like it is another wrapped logger.
      have hname : pyName id ≠ pyName (resolveEwtsId u s) := fun h => hne (pyName_inj.mp h)
      have happ : pyName id ≠ resolveEwtsId u s := (ne_pyName (resolveEwtsId_upper u s) id).symm
      calc (r.resetLogger u s).pyLoggers (pyName id) =
            (r.setPyLogger (pyName (resolveEwtsId u s)) .fresh).pyLoggers (pyName id) :=
          Function.update_of_ne happ ..
        _ = r.pyLoggers (pyName id) := Function.update_of_ne hname ..
    · exact fun _ h => h

theorem setupLogger_spec (host : Host) (s : Text) (args : SetupArgs) (hv : r.Valid u) :
    (r.setupLogger u host s args).2.Valid u ∧
      (r.Owned → (r.setupLogger u host s args).2.Owned) := by
  obtain ⟨hv', ho'⟩ := resetLogger_spec (resolveEwtsId u s) hv
  unfold setupLogger
  simp only
  split
  · exact ⟨hv', ho'⟩
  · rename_i overrides _
    obtain ⟨hv'', ho'', _⟩ := getLogger_spec
      (r := { r.resetLogger u (resolveEwtsId u s) with overrides := overrides }) host
      (resolveEwtsId u s) hv'
    exact ⟨hv'', fun h => ho'' fun id ref href => (ho' h id ref href).frame rfl fun _ h => h⟩

theorem setLevel_spec {id : Text} {ref : Nat} (hcached : r.cache id = some ref) (level : Int)
    (hv : r.Valid u) :
    (r.setLevel ref level).Valid u ∧ (r.Owned → (r.setLevel ref level).Owned) := by
  obtain ⟨hid, o, ho, hown⟩ := hv id ref hcached
  have hlt : ref < r.objects.length := (List.getElem?_eq_some_iff.mp ho).1
  have hself : (r.objects.set ref { o with minLevel := level })[ref]? =
      some { o with minLevel := level } := List.getElem?_set_self hlt
  unfold setLevel
  simp only [ho]
  constructor
  · intro id' ref' hcached'
    obtain ⟨hid', o', ho', hown'⟩ := hv id' ref' hcached'
    by_cases href : ref = ref'
    · subst href
      rw [ho] at ho'
      cases ho'
      exact ⟨hid', _, hself, hown'⟩
    · exact ⟨hid', o', (List.getElem?_set_ne href).trans ho', hown'⟩
  · intro howned id' ref' href'
    have hcached' : r.cache id' = some ref' := href'
    obtain ⟨hid', o', ho', hown'⟩ := hv id' ref' hcached'
    have h' := howned id' ref' hcached'
    by_cases href : ref = ref'
    · subst href
      rw [ho] at ho'
      cases ho'
      subst hown'
      exact ⟨by simpa [setPyLogger] using h'.handler,
        _, hself, by simp [setPyLogger]⟩
    · have hne : o.ewtsId ≠ id' := by
        rintro heq
        rw [← hown, heq] at hcached
        rw [hcached] at hcached'
        exact href (Option.some.inj hcached')
      apply h'.frame
      · exact Function.update_of_ne (fun h => hne (pyName_inj.mp h).symm) ..
      · exact fun o'' ho'' => (List.getElem?_set_ne href).trans ho''

/-- A new object keeps ownership exactly when no object is cached under its id. -/
theorem owned_wire_iff {o : EwtsObject} (hv : r.Valid u) (ho : r.Owned) :
    (r.wire o).Owned ↔ r.cache o.ewtsId = none := by
  constructor
  · intro h
    cases hcached : r.cache o.ewtsId with
    | none => rfl
    | some ref =>
      -- Its handler forwards to the new object, which the cache does not know.
      obtain ⟨_, o', ho', _⟩ := hv _ ref hcached
      have hlt : ref < r.objects.length := (List.getElem?_eq_some_iff.mp ho').1
      have hown := (h o.ewtsId ref hcached).handler
      rw [(owns_wire o).handler] at hown
      simp only [List.cons.injEq, Handler.ewts.injEq, and_true] at hown
      omega
  · intro hnone id ref href
    apply (ho id ref href).wire
    rintro rfl
    have hsome : r.cache o.ewtsId = some ref := href
    rw [hnone] at hsome
    cases hsome

/-- A standard logger that no id is wired to can change freely. -/
theorem owned_setPyLogger {name : Text} (h : u.upper name = name) (py : PyLogger) :
    (r.setPyLogger name py).Owned ↔ r.Owned := by
  have hpy : ∀ id, (r.setPyLogger name py).pyLoggers (pyName id) = r.pyLoggers (pyName id) :=
    fun id => Function.update_of_ne (ne_pyName h id).symm ..
  constructor
  · intro ho id ref href
    exact (ho id ref href).frame (hpy id).symm fun _ h => h
  · intro ho id ref href
    exact (ho id ref href).frame (hpy id) fun _ h => h

theorem configureExistingLogger_spec (host : Host) (name : Text) (hv : r.Valid u) :
    (r.configureExistingLogger u host name).Valid u ∧
      (r.Owned → ((r.configureExistingLogger u host name).Owned ↔
        (name ∈ knownIds → r.cache name = none ∨ r.construct u host name = none))) := by
  unfold configureExistingLogger
  split
  · rename_i hname
    exact ⟨hv, fun ho => iff_of_true ho fun h => absurd h hname⟩
  · rename_i hname
    have hname' : name ∈ knownIds := not_not.mp hname
    have hfix := knownIds_upper u hname'
    simp only [hname', true_imp_iff]
    generalize hr' : r.setPyLogger name _ = r'
    have hv' : r'.Valid u := by
      subst hr'
      exact hv
    have ho' : r'.Owned ↔ r.Owned := by
      subst hr'
      exact owned_setPyLogger hfix _
    have hcache : r'.cache = r.cache := by rw [← hr']; rfl
    have hnew : r'.construct u host name = r.construct u host name := by rw [← hr']; rfl
    rw [hnew]
    cases hcons : r.construct u host name with
    | none => exact ⟨hv', fun ho => iff_of_true (ho'.mpr ho) (Or.inr rfl)⟩
    | some o =>
      have hid : o.ewtsId = name := (construct_logger hcons).1.trans hfix
      refine ⟨hv'.wire o, fun ho => ?_⟩
      simp only [reduceCtorEq, or_false]
      rw [owned_setPyLogger hfix, owned_wire_iff hv' (ho'.mpr ho), hcache, hid]

end Calls

/-! ## Runs -/

/-- A call keeps the references valid, and ownership exactly when it leaves the owners alone. -/
theorem next_spec {u : Unicode} {r : Registry} (c : Host × Call) (hv : r.Valid u) :
    (r.next u c).Valid u ∧ (r.Owned → ((r.next u c).Owned ↔ r.Leaves u c)) := by
  obtain ⟨host, call⟩ := c
  cases call with
  | getLogger s =>
    obtain ⟨hv', ho', _⟩ := getLogger_spec host s hv
    exact ⟨hv', fun ho => iff_of_true (ho' ho) trivial⟩
  | resetLogger s =>
    obtain ⟨hv', ho'⟩ := resetLogger_spec s hv
    exact ⟨hv', fun ho => iff_of_true (ho' ho) trivial⟩
  | setupLogger s args =>
    obtain ⟨hv', ho'⟩ := setupLogger_spec host s args hv
    exact ⟨hv', fun ho => iff_of_true (ho' ho) trivial⟩
  | configureExistingLogger name => exact configureExistingLogger_spec host name hv
  | setLevel s level =>
    obtain ⟨hv', ho', hcached⟩ := getLogger_spec host s hv
    unfold next
    simp only
    cases hget : r.getLogger u host s with
    | mk ref r' =>
      rw [hget] at hv' ho' hcached
      cases ref with
      | none => exact ⟨hv', fun ho => iff_of_true (ho' ho) trivial⟩
      | some ref =>
        obtain ⟨hv'', ho''⟩ := setLevel_spec (hcached ref rfl) level hv'
        exact ⟨hv'', fun ho => iff_of_true (ho'' (ho' ho)) trivial⟩

/-- In every state of a run the cached objects own their standard loggers, exactly when every
call of the run leaves them alone. -/
theorem owned_run_iff (u : Unicode) (calls : List (Host × Call)) :
    AllStates (next u) Owned initial calls ↔ EachStep (next u) (Leaves u) initial calls := by
  apply allStates_iff_eachStep (I := Valid u)
  · exact fun r c hv => (next_spec c hv).1
  · exact fun r c hv ho => (next_spec c hv).2 ho
  · rintro id ref h
    cases h
  · rintro id ref h
    cases h

/-- An empty environment, with only `stdout` to log to. -/
def bareHost : Host where
  process := ⟨fun _ => none, fun _ => none⟩
  now := default
  home := id
  loads _ := false
  loadError := id
  encodes _ := true

/-- An application logger that is configured after `get_logger` of the same id redirects the
standard logger of the cached object. -/
theorem configured_logger_not_owned :
    ¬ AllStates (next .ascii) Owned initial
      [(bareHost, .getLogger (text "t-route")),
        (bareHost, .configureExistingLogger (text "TROUTE"))] := by
  intro h
  have howns := h _ (List.prefix_refl _) (text "TROUTE") 0 (by decide)
  have hhandler := howns.handler
  revert hhandler
  decide

end Registry

end Ewts.Python
