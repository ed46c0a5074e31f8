import Ewts.Correctness.CppInterleaving

/-!
# Routes and files of the C++ runtime

The first lookup of a key decides for good where the messages of its logger go. They go either
to ngen or to the streams of the logger, never both ways.
-/

namespace Ewts.Cpp

variable {τ : Type} {host : Host}

/-- The flag of a lookup of this key. -/
def Event.flag (key : Text) (e : Event τ) : Option Bool :=
  match e.request with
  | .getLogger own ewtsNgen => if own = key then some ewtsNgen else none
  | _ => none

/-- The flag of the first lookup of a key. -/
def firstFlag (key : Text) (order : List (Event τ)) : Option Bool :=
  order.findSome? (Event.flag key)

theorem firstFlag_append (key : Text) (order more : List (Event τ)) :
    firstFlag key (order ++ more) = (firstFlag key order).or (firstFlag key more) :=
  List.findSome?_append

/-- The loggers that a process has, with their flags. -/
def Loggers.flag (loggers : Loggers) (key : Text) : Option Bool :=
  (loggers key).map Logger.useNgen

section Moves

variable {s : Shared τ} {t : τ} {now : Timestamp} {θ : Thread} {r : Shared τ × Thread}
  {loggers : Loggers} {key : Text} {lg lg' : Logger}

theorem Loggers.flag_set (h : loggers key = some lg) (huse : lg'.useNgen = lg.useNgen) :
    Loggers.flag (Function.update loggers key (some lg')) = loggers.flag := by
  ext1 other
  by_cases hkey : other = key
  · rw [flag, flag, hkey, Function.update_self, h, Option.map_some, Option.map_some, huse]
  · rw [flag, flag, Function.update_of_ne hkey]

/-- A lookup decides about a key that has no logger. -/
theorem Loggers.flag_get (loggers : Loggers) (own : Text) (ewtsNgen : Bool) (key : Text) :
    (loggers.get own ewtsNgen).flag key =
      (loggers.flag key).or (if own = key then some ewtsNgen else none) := by
  cases h : loggers own with
  | some lg =>
    rw [get_of_some h]
    by_cases hkey : own = key
    · rw [flag, ← hkey, h, Option.map_some, Option.some_or]
    · rw [if_neg hkey, Option.or_none]
  | none =>
    rw [get_of_none h, flag, flag]
    by_cases hkey : own = key
    · rw [← hkey, Function.update_self, h, if_pos rfl]
      rfl
    · rw [Function.update_of_ne (Ne.symm hkey), if_neg hkey, Option.or_none]

/-- Behind the registry no lookup takes effect. -/
theorem Thread.firstFlag_effect (h : ∀ own ewtsNgen m, θ.position ≠ .find own ewtsNgen m)
    (h' : ∀ own ewtsNgen m, θ.position ≠ .create own ewtsNgen m) (key : Text) :
    firstFlag key (θ.effect host s t now) = none := by
  rw [firstFlag, List.findSome?_eq_none_iff]
  intro e he
  unfold Thread.effect at he
  split at he
  · rename_i hposition
    exact absurd hposition (h _ _ _)
  · rename_i hposition
    exact absurd hposition (h' _ _ _)
  · rw [List.mem_singleton.mp he]
    rfl
  · rw [List.mem_singleton.mp he]
    rfl
  · split at he
    · rw [List.mem_singleton.mp he]
      rfl
    · cases he
  · rw [List.mem_singleton.mp he]
    rfl
  · split at he
    · rw [List.mem_singleton.mp he]
      rfl
    · cases he
  · rw [List.mem_singleton.mp he]
    rfl
  · cases he

/-- The flags change by the lookups that take effect. -/
theorem Thread.Move.flags (hmove : Thread.Move host s t now θ r)
    (hsound : θ.position.Sound host s.loggers) (key : Text) :
    r.1.loggers.flag key = (s.loggers.flag key).or (firstFlag key (θ.effect host s t now)) := by
  cases hmove with
  | stay hblocked =>
    rw [Thread.effect_of_blocked hblocked, firstFlag, List.findSome?_nil, Option.or_none]
  | @found own ewtsNgen method current todo answers hpresent =>
    obtain ⟨lg, hlg⟩ := hpresent
    have heffect : Thread.effect host s t now ⟨.find own ewtsNgen method, current, todo, answers⟩ =
        [⟨t, .getLogger own ewtsNgen, now, now⟩] := by
      simp only [Thread.effect, hlg]
    have hget := s.loggers.flag_get own ewtsNgen key
    rw [Loggers.get_of_some hlg] at hget
    rw [heffect, firstFlag, List.findSome?_singleton]
    exact hget
  | @missing own ewtsNgen method current todo answers hnone =>
    have heffect : Thread.effect host s t now ⟨.find own ewtsNgen method, current, todo, answers⟩ =
        [] := by
      simp only [Thread.effect, hnone]
    rw [heffect, firstFlag, List.findSome?_nil, Option.or_none]
  | @create own ewtsNgen method current todo answers =>
    have hget := s.loggers.flag_get own ewtsNgen key
    rw [Loggers.get_of_none hsound] at hget
    have heffect : firstFlag key (Thread.effect host s t now
        ⟨.create own ewtsNgen method, current, todo, answers⟩) =
          if own = key then some ewtsNgen else none := List.findSome?_singleton
    rw [heffect]
    exact hget
  | @initialise own =>
    obtain ⟨lg, hlg⟩ := hsound
    rw [Thread.firstFlag_effect (by simp) (by simp), Option.or_none]
    simp only [Shared.setLogger, Loggers.at_of_some hlg]
    rw [Loggers.flag_set hlg Logger.useNgen_initOnce]
  | @opened own _ _ _ _ _ _ lg hopen =>
    obtain ⟨lg', hlg', _⟩ := hsound.1
    rw [Loggers.at_of_some hlg'] at hopen
    rw [Thread.firstFlag_effect (by simp) (by simp), Option.or_none]
    simp only [Shared.setLogger]
    rw [Loggers.flag_set hlg']
    rw [Logger.eq_of_settled (Logger.openStandaloneFile_settled hopen)]
  | notice | insert =>
    rw [Thread.firstFlag_effect (by simp) (by simp), Option.or_none]
    rfl
  | _ => rw [Thread.firstFlag_effect (by simp) (by simp), Option.or_none]

/-- A logger with a settled route: it is ready, and its messages go to its streams. -/
def Loggers.Alone (host : Host) (loggers : Loggers) (key : Text) : Prop :=
  loggers.Ready key ∧ ¬ (loggers.at key).Bridges host

/-- Its messages go to ngen. -/
def Loggers.Bridged (host : Host) (loggers : Loggers) (key : Text) : Prop :=
  loggers.Ready key ∧ (loggers.at key).Bridges host

section Grows

variable {loggers' : Loggers} (h : loggers.Grows loggers')

include h

theorem Loggers.Alone.mono (hkey : loggers.Alone host key) : loggers'.Alone host key := by
  refine ⟨hkey.1.mono h, ?_⟩
  rw [Logger.bridges_congr (hkey.1.settled h)]
  exact hkey.2

theorem Loggers.Bridged.mono (hkey : loggers.Bridged host key) : loggers'.Bridged host key := by
  refine ⟨hkey.1.mono h, ?_⟩
  rw [Logger.bridges_congr (hkey.1.settled h)]
  exact hkey.2

/-- The id of a ready logger stays as it is. -/
theorem Loggers.Ready.ewtsId (hkey : loggers.Ready key) :
    (loggers'.at key).ewtsId = (loggers.at key).ewtsId := by
  rw [Logger.eq_of_settled (hkey.settled h)]

end Grows

/-- The thread inserts into the stream of this logger. -/
def Thread.Writes (θ : Thread) (key : Text) : Prop :=
  match θ.position with
  | .write own _ _ => own = key
  | _ => False

/-- What leaves a process by one route comes from loggers with this route. -/
structure World.Apart (host : Host) (w : World τ) : Prop where
  writing : ∀ t key, (w.threads t).Writes key → w.shared.loggers.Alone host key
  written : ∀ key sink, piecesOf key (w.shared.out sink) ≠ [] → w.shared.loggers.Alone host key
  bridged : ∀ e ∈ w.shared.bridged, ∃ key, w.shared.loggers.Bridged host key ∧
    e.1 = cStr (w.shared.loggers.at key).ewtsId

/-- A thread only begins to write behind the route. -/
theorem Thread.Move.writing (hmove : Thread.Move host s t now θ r)
    (hsound : θ.position.Sound host s.loggers) (hgrows : s.loggers.Grows r.1.loggers)
    (h : ∀ key, θ.Writes key → s.loggers.Alone host key) (key : Text) (hkey : r.2.Writes key) :
    r.1.loggers.Alone host key := by
  cases hmove with
  | stay => exact h key hkey
  | opened =>
    obtain ⟨hready, _, halone⟩ := hsound
    obtain rfl := hkey
    exact Loggers.Alone.mono hgrows ⟨hready, halone⟩
  | insert => exact h key hkey
  | _ => exact False.elim hkey

/-- What a step inserts comes from a thread that writes. -/
theorem Thread.Move.written (hmove : Thread.Move host s t now θ r) {key : Text}
    {sink : Option Text} (hkey : piecesOf key (r.1.out sink) ≠ piecesOf key (s.out sink)) :
    θ.Writes key := by
  cases hmove with
  | notice =>
    rw [piecesOf_print_notice] at hkey
    exact absurd rfl hkey
  | @insert own file piece =>
    rw [piecesOf_print_piece] at hkey
    by_cases hown : own = key
    · exact hown
    · rw [if_neg fun h => hown h.1, List.append_nil] at hkey
      exact absurd rfl hkey
  | _ => exact absurd rfl hkey

/-- A bridged message comes from a logger with this route. -/
theorem Thread.Move.bridged (hmove : Thread.Move host s t now θ r)
    (hsound : θ.position.Sound host s.loggers) (hgrows : s.loggers.Grows r.1.loggers)
    (h : ∀ e ∈ s.bridged,
      ∃ key, s.loggers.Bridged host key ∧ e.1 = cStr (s.loggers.at key).ewtsId) :
    ∀ e ∈ r.1.bridged, ∃ key, r.1.loggers.Bridged host key ∧
      e.1 = cStr (r.1.loggers.at key).ewtsId := by
  have kept : ∀ e ∈ s.bridged, ∃ key, r.1.loggers.Bridged host key ∧
      e.1 = cStr (r.1.loggers.at key).ewtsId := by
    intro e he
    obtain ⟨key, hkey, hid⟩ := h e he
    refine ⟨key, hkey.mono hgrows, ?_⟩
    rw [hid, hkey.1.ewtsId hgrows]
  cases hmove with
  | @bridge key level message _ _ _ hbridges =>
    intro e he
    rcases List.mem_append.mp he with he | he
    · exact kept e he
    · rw [List.mem_singleton.mp he]
      exact ⟨key, ⟨hsound.1, hbridges⟩, rfl⟩
  | _ => exact kept

end Moves

section Runs

variable [DecidableEq τ] {w : World τ}

/-- Every step keeps the routes apart. -/
theorem World.Apart.step (h : w.Apart host) (hinv : w.Invariant host) (turn : τ × Timestamp) :
    (w.step host turn).Apart host := by
  obtain ⟨t, now⟩ := turn
  have hmove := Thread.step_move host w.shared t now (w.threads t)
  have hsound := (hinv.sound t).position
  have hgrows := (hmove.stepSound (hinv.sound t)).grows
  refine ⟨fun u key hkey => ?_, fun key sink hkey => ?_, hmove.bridged hsound hgrows h.bridged⟩
  · by_cases hu : u = t
    · simp only [World.step, hu, Function.update_self] at hkey ⊢
      exact hmove.writing hsound hgrows (h.writing t) key hkey
    · simp only [World.step, Function.update_of_ne hu] at hkey ⊢
      exact (h.writing u key hkey).mono hgrows
  · by_cases hsame : piecesOf key ((w.step host (t, now)).shared.out sink) =
        piecesOf key (w.shared.out sink)
    · rw [hsame] at hkey
      exact (h.written key sink hkey).mono hgrows
    · exact (h.writing t key (hmove.written hsame)).mono hgrows

/-- The flags of the loggers are those of the first lookups that took effect. -/
theorem World.flag_run (host : Host) (programs : τ → List Call) (schedule : List (τ × Timestamp)) :
    ∀ key, (World.run host programs schedule).shared.loggers.flag key =
      firstFlag key (World.order host programs schedule) := by
  refine (effects_invariant (R := fun (w : World τ) order => w.Invariant host ∧
    ∀ key, w.shared.loggers.flag key = firstFlag key order) ?_
    ⟨.start programs, fun _ => rfl⟩).2
  rintro w order ⟨t, now⟩ ⟨hinv, h⟩
  refine ⟨hinv.step (t, now), fun key => ?_⟩
  rw [firstFlag_append, ← h]
  exact (Thread.step_move host w.shared t now (w.threads t)).flags (hinv.sound t).position key

theorem World.apart_run (host : Host) (programs : τ → List Call)
    (schedule : List (τ × Timestamp)) : (World.run host programs schedule).Apart host := by
  refine (runFrom_invariant (I := fun w : World τ => w.Invariant host ∧ w.Apart host)
    (fun w turn _ h => ⟨h.1.step turn, h.2.step h.1 turn⟩) ⟨.start programs, ?_⟩).2
  refine ⟨fun t key h => h.elim, fun key sink h => absurd rfl h, fun e he => ?_⟩
  cases he

/-- Whatever the interleaving, the first lookup of a key settles the route of its logger for the
whole run. With the flag, inside ngen, nothing is ever written to a stream of the logger; and
every message that is bridged comes from such a logger. -/
theorem World.first_lookup_routes (host : Host) (programs : τ → List Call)
    (schedule : List (τ × Timestamp)) :
    let w := World.run host programs schedule
    let order := World.order host programs schedule
    let inside := isNgenActive host.env && host.linked
    (∀ key, (w.shared.loggers key).map Logger.useNgen = firstFlag key order) ∧
    (∀ key sink, firstFlag key order = some true → inside = true →
      piecesOf key (w.shared.out sink) = []) ∧
    ∀ e ∈ w.shared.bridged, inside = true ∧ ∃ key lg, w.shared.loggers key = some lg ∧
      firstFlag key order = some true ∧ e.1 = cStr lg.ewtsId := by
  intro w order inside
  have hflag : ∀ key, w.shared.loggers.flag key = firstFlag key order :=
    World.flag_run host programs schedule
  have hapart : w.Apart host := World.apart_run host programs schedule
  have hbridges {lg : Logger} : lg.Bridges host ↔ lg.useNgen = true ∧ inside = true := by
    rw [Logger.Bridges, Bool.and_assoc, Bool.and_eq_true]
  refine ⟨hflag, fun key sink hfirst hinside => ?_, fun e he => ?_⟩
  · by_contra hne
    obtain ⟨⟨lg, hlg, _⟩, halone⟩ := hapart.written key sink hne
    rw [Loggers.at_of_some hlg, hbridges] at halone
    rw [← hflag, Loggers.flag, hlg] at hfirst
    exact halone ⟨Option.some.inj hfirst, hinside⟩
  · obtain ⟨key, ⟨⟨lg, hlg, _⟩, hkey⟩, hid⟩ := hapart.bridged e he
    rw [Loggers.at_of_some hlg] at hkey hid
    obtain ⟨huse, hinside⟩ := hbridges.mp hkey
    refine ⟨hinside, key, lg, hlg, ?_, hid⟩
    rw [← hflag, Loggers.flag, hlg, Option.map_some, huse]

end Runs

end Ewts.Cpp
