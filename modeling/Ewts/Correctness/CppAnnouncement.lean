import Ewts.Correctness.CppThreads

/-!
# Every logger is announced once

`init_once` prints what it found in the environment. Whatever the threads do, `std::cout` gets the
notices of a logger once. Their prefix is read from `g_mpiRank`, which loggers that are used for
the first time at the same moment reset for each other.
-/

namespace Ewts.Cpp

variable {τ : Type} {host : Host}

/-- The notices of a logger among what is inserted into a stream. -/
def noticesOf (key : Text) (printed : List Printed) : List Text :=
  printed.filterMap fun
    | .notice own notice => if own = key then some notice else none
    | .piece _ _ => none

/-- The thread has initialised this logger and has yet to make its notices. -/
def Thread.Prepares (θ : Thread) (key : Text) : Prop :=
  match θ.position with
  | .rank own _ | .head own _ | .named own _ => own = key
  | _ => False

/-- The notices of a logger that a thread has yet to insert. -/
def Thread.unannounced (key : Text) (θ : Thread) : List Text :=
  match θ.position with
  | .announce own _ rest => if own = key then rest else []
  | _ => []

/-- The notices that the thread with the `init_mtx_` of a logger has yet to insert. -/
def World.unannounced (w : World τ) (key : Text) : List Text :=
  held (w.shared.initMutex key) w.threads (Thread.unannounced key)

/-- What `std::cout` shows about a logger, behind a prefix of this kind. -/
structure Announced (host : Host) (Label : Text → Prop) (w : World τ) (key : Text) : Prop where
  idle : ¬ w.shared.loggers.Ready key → noticesOf key (w.shared.out none) = []
  preparing : ∀ t, (w.threads t).Prepares key → noticesOf key (w.shared.out none) = []
  told : w.shared.loggers.Ready key → (∀ t, ¬ (w.threads t).Prepares key) →
    ∃ label, Label label ∧ noticesOf key (w.shared.out none) ++ w.unannounced key =
      notices host.env host.linked label (w.shared.loggers.at key)
  files : ∀ path, noticesOf key (w.shared.out (some path)) = []

/-- The prefix with which the next step of a thread prepares the notices of a logger. -/
def Thread.Labels (s : Shared τ) (θ : Thread) (key label : Text) : Prop :=
  match θ.position with
  | .head own _ => own = key ∧ s.mpiRank < 0 ∧ label = plainLabel
  | .named own _ => own = key ∧ label = rankLabel s.mpiRank
  | _ => False

section Moves

variable {s : Shared τ} {t : τ} {now : Timestamp} {θ : Thread} {r : Shared τ × Thread}
  {key : Text}

theorem noticesOf_print_piece (sink : Option Text) (own piece : Text) (other : Option Text) :
    noticesOf key ((s.print sink (.piece own piece)).out other) = noticesOf key (s.out other) := by
  by_cases h : other = sink
  · simp [noticesOf, Shared.print, h]
  · simp [noticesOf, Shared.print, h]

theorem noticesOf_print_notice (sink : Option Text) (own notice : Text) (other : Option Text) :
    noticesOf key ((s.print sink (.notice own notice)).out other) =
      noticesOf key (s.out other) ++ if own = key ∧ other = sink then [notice] else [] := by
  by_cases h : other = sink
  · by_cases hown : own = key
    · simp [noticesOf, Shared.print, h, hown]
    · simp [noticesOf, Shared.print, h, hown]
  · simp [noticesOf, Shared.print, h]

theorem Thread.unannounced_of_not_inInit (h : ¬ θ.InInit key) : θ.unannounced key = [] := by
  obtain ⟨position, current, todo, answers⟩ := θ
  cases position with
  | announce own method rest => exact if_neg h
  | _ => rfl

theorem Thread.Prepares.inInit (h : θ.Prepares key) : θ.InInit key := by
  obtain ⟨position, current, todo, answers⟩ := θ
  cases position with
  | rank | head | named => exact h
  | _ => exact h.elim

/-- Apart from the step that prepares them, notices are only inserted. -/
theorem Thread.Move.announces (hmove : Thread.Move host s t now θ r) (h : ¬ θ.Prepares key) :
    noticesOf key (r.1.out none) ++ r.2.unannounced key =
      noticesOf key (s.out none) ++ θ.unannounced key := by
  cases hmove with
  | head | named =>
    have hown : ¬ _ = key := h
    simp only [Thread.unannounced, if_neg hown]
  | @notice own method notice rest =>
    rw [noticesOf_print_notice, List.append_assoc]
    by_cases hown : own = key
    · simp [Thread.unannounced, hown]
    · simp [Thread.unannounced, hown]
  | announced => simp [Thread.unannounced]
  | insert =>
    rw [noticesOf_print_piece]
    rfl
  | _ => rfl

/-- Only `std::cout` gets notices. -/
theorem Thread.Move.notices_file (hmove : Thread.Move host s t now θ r) (path : Text) :
    noticesOf key (r.1.out (some path)) = noticesOf key (s.out (some path)) := by
  cases hmove with
  | notice => simp [noticesOf_print_notice]
  | insert => rw [noticesOf_print_piece]
  | _ => rfl

/-- The thread inserts notices of this logger. -/
def Thread.Announces (θ : Thread) (key : Text) : Prop :=
  match θ.position with
  | .announce own _ _ => own = key
  | _ => False

/-- Only such a thread adds notices. -/
theorem Thread.Move.noticed (hmove : Thread.Move host s t now θ r) (h : ¬ θ.Announces key) :
    noticesOf key (r.1.out none) = noticesOf key (s.out none) := by
  cases hmove with
  | @notice own =>
    rw [noticesOf_print_notice, if_neg fun hown => h hown.1, List.append_nil]
  | insert => rw [noticesOf_print_piece]
  | _ => rfl

/-- A logger becomes ready when a thread begins to prepare its notices. -/
theorem Thread.Move.ready (hmove : Thread.Move host s t now θ r)
    (hsound : θ.position.Sound host s.loggers) (h : r.1.loggers.Ready key) :
    s.loggers.Ready key ∨ r.2.Prepares key := by
  have other {own : Text} {lg : Logger} (hne : own ≠ key)
      (h : Loggers.Ready (Function.update s.loggers own (some lg)) key) : s.loggers.Ready key := by
    obtain ⟨lg', hlg, hinit⟩ := h
    rw [Function.update_of_ne (Ne.symm hne)] at hlg
    exact ⟨lg', hlg, hinit⟩
  cases hmove with
  | @create own ewtsNgen =>
    by_cases hown : own = key
    · obtain ⟨lg, hlg, hinit⟩ := h
      simp only [Shared.setLogger, hown, Function.update_self, Option.some.injEq] at hlg
      rw [← hlg] at hinit
      cases hinit
    · exact Or.inl (other hown h)
  | @initialise own =>
    by_cases hown : own = key
    · exact Or.inr hown
    · exact Or.inl (other hown h)
  | @opened own =>
    by_cases hown : own = key
    · exact Or.inl (hown ▸ hsound.1)
    · exact Or.inl (other hown h)
  | _ => exact Or.inl h

/-- A thread prepares the notices of a logger that it has just initialised. -/
theorem Thread.Move.prepares (hmove : Thread.Move host s t now θ r)
    (hsound : θ.position.Sound host s.loggers) (h : r.2.Prepares key) :
    ¬ θ.Announces key ∧ (θ.Prepares key ∨ ¬ s.loggers.Ready key) := by
  cases hmove with
  | stay hblocked =>
    refine ⟨fun hannounces => ?_, Or.inl h⟩
    unfold Thread.Announces at hannounces
    unfold Thread.Prepares at h
    split at hannounces
    · rename_i hposition
      rw [hposition] at h
      exact h
    · exact hannounces
  | @initialise own _ _ _ _ hinit =>
    refine ⟨id, Or.inr fun hready => ?_⟩
    obtain rfl : own = key := h
    obtain ⟨lg, hlg, htrue⟩ := hready
    rw [Loggers.at_of_some hlg, htrue] at hinit
    cases hinit
  | rank | ranked => exact ⟨id, Or.inl h⟩
  | _ => exact False.elim h

/-- It does so until the notices are made. -/
theorem Thread.Move.prepared (hmove : Thread.Move host s t now θ r) (h : θ.Prepares key) :
    r.2.Prepares key ∨ r.1.loggers = s.loggers ∧ ∃ label, θ.Labels s key label ∧
      r.2.unannounced key = notices host.env host.linked label (s.loggers.at key) := by
  cases hmove with
  | stay | rank | ranked => exact Or.inl h
  | @head own _ _ _ _ hrank =>
    obtain rfl : own = key := h
    exact Or.inr ⟨rfl, plainLabel, ⟨rfl, hrank, rfl⟩, if_pos rfl⟩
  | @named own =>
    obtain rfl : own = key := h
    exact Or.inr ⟨rfl, rankLabel s.mpiRank, ⟨rfl, rfl⟩, if_pos rfl⟩
  | _ => exact False.elim h

end Moves

section Steps

variable [DecidableEq τ] {w : World τ} {Label : Text → Prop} {key : Text}

omit [DecidableEq τ] in
/-- Two threads are not in the first use of one logger. -/
theorem World.Invariant.not_announces (hinv : w.Invariant host) {t u : τ}
    (ht : (w.threads t).Prepares key) : ¬ (w.threads u).Announces key := by
  intro hu
  have hin : (w.threads u).InInit key := by
    unfold Thread.Announces at hu
    unfold Thread.InInit
    split at hu
    · rename_i hposition
      rw [hposition]
      exact hu
    · exact hu.elim
  obtain rfl := (hinv.init key).unique ht.inInit hin
  unfold Thread.Announces at hu
  unfold Thread.Prepares at ht
  split at hu
  · rename_i hposition
    rw [hposition] at ht
    exact ht
  · exact hu

omit [DecidableEq τ] in
/-- A thread that inserts notices has a ready logger. -/
theorem World.Invariant.ready_of_announces (hinv : w.Invariant host) {t : τ}
    (ht : (w.threads t).Announces key) : w.shared.loggers.Ready key := by
  have hsound := (hinv.sound t).position
  unfold Thread.Announces at ht
  split at ht
  · rename_i hposition
    rw [hposition] at hsound
    exact ht ▸ hsound
  · exact ht.elim

/-- What a step leaves to insert is what its thread has left. -/
theorem World.unannounced_inside (hinv : w.Invariant host) {t : τ} {now : Timestamp}
    (hside : (w.threads t).InInit key ∨ ((w.threads t).step host w.shared t now).2.InInit key) :
    w.unannounced key = (w.threads t).unannounced key ∧
      (w.step host (t, now)).unannounced key =
        ((w.threads t).step host w.shared t now).2.unannounced key := by
  have hguard' := ((Thread.step_move host w.shared t now (w.threads t)).guards hinv).2.1 key
  have hnone (θ : Thread) (hθ : ¬ θ.InInit key) : θ.unannounced key = [] :=
    Thread.unannounced_of_not_inInit hθ
  exact (hinv.init key).held_of_inside hguard' hnone hnone hside

/-- Away from the first use of a logger nothing changes. -/
theorem World.unannounced_outside (hinv : w.Invariant host) {t : τ} {now : Timestamp}
    (hside : ¬ ((w.threads t).InInit key ∨
      ((w.threads t).step host w.shared t now).2.InInit key)) :
    (w.step host (t, now)).unannounced key = w.unannounced key := by
  have hguard' := ((Thread.step_move host w.shared t now (w.threads t)).guards hinv).2.1 key
  rw [not_or] at hside
  exact (hinv.init key).held_of_outside hguard' hside.1 hside.2 fun _ _ => rfl

omit [DecidableEq τ] in
/-- The stream of a logger does not show in its notices. -/
theorem notices_congr {lg lg' : Logger} (h : lg'.settled = lg.settled) (env : Environ)
    (linked : Bool) (label : Text) :
    notices env linked label lg' = notices env linked label lg := by
  rw [Logger.eq_of_settled h]
  rfl

/-- Each step announces what it prepares. -/
theorem Announced.step (h : Announced host Label w key) (hinv : w.Invariant host)
    (turn : τ × Timestamp)
    (hlabel : ∀ label, (w.threads turn.1).Labels w.shared key label → Label label) :
    Announced host Label (w.step host turn) key := by
  obtain ⟨t, now⟩ := turn
  have hmove := Thread.step_move host w.shared t now (w.threads t)
  have hsound := (hinv.sound t).position
  have hgrows := (hmove.stepSound (hinv.sound t)).grows
  constructor
  · intro hready
    have hbefore : ¬ w.shared.loggers.Ready key := fun hkey => hready (hkey.mono hgrows)
    have hquiet : ¬ (w.threads t).Announces key := fun ht => hbefore (hinv.ready_of_announces ht)
    exact (hmove.noticed hquiet).trans (h.idle hbefore)
  · intro u hu
    by_cases hut : u = t
    · simp only [World.step, hut, Function.update_self] at hu
      obtain ⟨hquiet, hprepares | hready⟩ := hmove.prepares hsound hu
      · exact (hmove.noticed hquiet).trans (h.preparing t hprepares)
      · exact (hmove.noticed hquiet).trans (h.idle hready)
    · simp only [World.step, Function.update_of_ne hut] at hu
      exact (hmove.noticed (hinv.not_announces hu)).trans (h.preparing u hu)
  · intro hready hnobody
    have hmine : ¬ ((w.threads t).step host w.shared t now).2.Prepares key := by
      have ht := hnobody t
      simp only [World.step, Function.update_self] at ht
      exact ht
    by_cases hprepares : (w.threads t).Prepares key
    · obtain ⟨hloggers, label, hmade, hrest⟩ := (hmove.prepared hprepares).resolve_left hmine
      refine ⟨label, hlabel label hmade, ?_⟩
      have hnone : noticesOf key ((w.step host (t, now)).shared.out none) = [] :=
        (hmove.noticed (hinv.not_announces hprepares)).trans (h.preparing t hprepares)
      rw [hnone, List.nil_append,
        (World.unannounced_inside hinv (Or.inl hprepares.inInit)).2, hrest]
      exact congrArg (fun loggers : Loggers => notices _ _ _ (loggers.at key)) hloggers.symm
    · have hbefore : w.shared.loggers.Ready key := (hmove.ready hsound hready).resolve_right hmine
      have hfree (u : τ) : ¬ (w.threads u).Prepares key := by
        intro hu
        by_cases hut : u = t
        · exact hprepares (hut ▸ hu)
        · have hafter := hnobody u
          simp only [World.step, Function.update_of_ne hut] at hafter
          exact hafter hu
      obtain ⟨label, hkind, htold⟩ := h.told hbefore hfree
      refine ⟨label, hkind, ?_⟩
      have hnotices : notices host.env host.linked label
          ((w.step host (t, now)).shared.loggers.at key) =
            notices host.env host.linked label (w.shared.loggers.at key) :=
        notices_congr (hbefore.settled hgrows) ..
      rw [hnotices, ← htold]
      by_cases hside : (w.threads t).InInit key ∨
          ((w.threads t).step host w.shared t now).2.InInit key
      · obtain ⟨hown, hown'⟩ := World.unannounced_inside hinv hside
        rw [hown, hown']
        exact hmove.announces hprepares
      · rw [World.unannounced_outside hinv hside]
        rw [not_or] at hside
        have hsame := hmove.announces hprepares
        rw [Thread.unannounced_of_not_inInit hside.1, Thread.unannounced_of_not_inInit hside.2,
          List.append_nil, List.append_nil] at hsame
        exact congrArg (· ++ w.unannounced key) hsame
  · exact fun path => (hmove.notices_file path).trans (h.files path)

end Steps

/-! ## The rank -/

section Ranks

variable {w : World τ}

/-- The prefix of the notices of a process whose rank is known at once. -/
def labelOf (mpiRank : Int) : Text := if 0 ≤ mpiRank then rankLabel mpiRank else plainLabel

/-- What stands in `g_mpiRank`: nothing yet, or the rank of the environment. -/
def IsRank (env : Environ) (rank : Int) : Prop := rank = -1 ∨ readRank env = some rank

/-- The prefixes that notices can get. A thread that tests a rank and then prints it may find it
reset in between. -/
def IsLabel (env : Environ) (label : Text) : Prop :=
  label = plainLabel ∨ ∃ rank, readRank env = some rank ∧ 0 ≤ rank ∧
    (label = rankLabel rank ∨ label = rankLabel (-1))

/-- The thread has reset `g_mpiRank` and has yet to set it again. -/
def Thread.Ranks (θ : Thread) : Prop :=
  match θ.position with
  | .rank .. => True
  | _ => False

/-- The thread reads `g_mpiRank` in its next step. -/
def Thread.Reads (θ : Thread) : Prop :=
  match θ.position with
  | .head .. | .named .. => True
  | _ => False

/-- The thread has found a rank. -/
def Thread.Named (θ : Thread) : Prop :=
  match θ.position with
  | .named .. => True
  | _ => False

/-- A step that reads `g_mpiRank` while another thread has reset it. -/
def World.Races (w : World τ) (turn : τ × Timestamp) : Prop :=
  (w.threads turn.1).Reads ∧ ∃ u, (w.threads u).Ranks

instance (θ : Thread) : Decidable θ.Ranks :=
  match θ with
  | ⟨.rank .., _, _, _⟩ => inferInstanceAs (Decidable True)
  | ⟨.outside, _, _, _⟩ | ⟨.find .., _, _, _⟩ | ⟨.create .., _, _, _⟩ | ⟨.unlock .., _, _, _⟩
  | ⟨.use .., _, _, _⟩ | ⟨.check .., _, _, _⟩ | ⟨.head .., _, _, _⟩ | ⟨.named .., _, _, _⟩
  | ⟨.announce .., _, _, _⟩ | ⟨.leave .., _, _, _⟩ | ⟨.act .., _, _, _⟩ | ⟨.route .., _, _, _⟩
  | ⟨.waiting .., _, _, _⟩ | ⟨.opening .., _, _, _⟩ | ⟨.write .., _, _, _⟩ =>
    inferInstanceAs (Decidable False)

instance (θ : Thread) : Decidable θ.Reads :=
  match θ with
  | ⟨.head .., _, _, _⟩ | ⟨.named .., _, _, _⟩ => inferInstanceAs (Decidable True)
  | ⟨.outside, _, _, _⟩ | ⟨.find .., _, _, _⟩ | ⟨.create .., _, _, _⟩ | ⟨.unlock .., _, _, _⟩
  | ⟨.use .., _, _, _⟩ | ⟨.check .., _, _, _⟩ | ⟨.rank .., _, _, _⟩
  | ⟨.announce .., _, _, _⟩ | ⟨.leave .., _, _, _⟩ | ⟨.act .., _, _, _⟩ | ⟨.route .., _, _, _⟩
  | ⟨.waiting .., _, _, _⟩ | ⟨.opening .., _, _, _⟩ | ⟨.write .., _, _, _⟩ =>
    inferInstanceAs (Decidable False)

instance [Fintype τ] (w : World τ) (turn : τ × Timestamp) : Decidable (w.Races turn) :=
  inferInstanceAs (Decidable (_ ∧ _))

/-- The state of `g_mpiRank`: a thread that is going to read it finds the rank, unless another
thread has reset it. -/
structure World.Ranked (host : Host) (w : World τ) : Prop where
  isRank : IsRank host.env w.shared.mpiRank
  named : ∀ t, (w.threads t).Named → ∃ rank, readRank host.env = some rank ∧ 0 ≤ rank
  reads : ∀ t, (w.threads t).Reads → (∀ u, ¬ (w.threads u).Ranks) →
    w.shared.mpiRank = (readRank host.env).getD (-1)

section Moves

variable {s : Shared τ} {t : τ} {now : Timestamp} {θ : Thread} {r : Shared τ × Thread}

/-- The thread that resets the rank sets it in its next step. -/
theorem Thread.Move.ranks (hmove : Thread.Move host s t now θ r)
    (h : IsRank host.env s.mpiRank) :
    IsRank host.env r.1.mpiRank ∧
      (r.1.mpiRank = (readRank host.env).getD (-1) ∨ r.2.Ranks ∨
        r.1.mpiRank = s.mpiRank ∧ ¬ θ.Ranks ∧ (r.2.Reads → θ.Reads)) := by
  cases hmove with
  | stay =>
    refine ⟨h, ?_⟩
    by_cases hθ : θ.Ranks
    · exact Or.inr (Or.inl hθ)
    · exact Or.inr (Or.inr ⟨rfl, hθ, id⟩)
  | initialise => exact ⟨Or.inl rfl, Or.inr (Or.inl trivial)⟩
  | rank =>
    simp only
    cases hread : readRank host.env with
    | none =>
      have hnone : s.mpiRank = -1 := by
        refine h.resolve_right fun hsome => ?_
        rw [hread] at hsome
        cases hsome
      exact ⟨h, Or.inl hnone⟩
    | some rank => exact ⟨Or.inr hread, Or.inl rfl⟩
  | ranked => exact ⟨h, Or.inr (Or.inr ⟨rfl, id, fun _ => trivial⟩)⟩
  | _ => exact ⟨h, Or.inr (Or.inr ⟨rfl, id, False.elim⟩)⟩

/-- A rank is found in `g_mpiRank`. -/
theorem Thread.Move.named_or (hmove : Thread.Move host s t now θ r) (h : r.2.Named) :
    θ.Named ∨ 0 ≤ s.mpiRank := by
  cases hmove with
  | stay => exact Or.inl h
  | ranked hrank => exact Or.inr hrank
  | _ => exact h.elim

end Moves

/-- The prefix of each logger is one of these. -/
theorem World.Ranked.isLabel (h : w.Ranked host) {t : τ} {key label : Text}
    (hlabel : (w.threads t).Labels w.shared key label) : IsLabel host.env label := by
  have hnamed := h.named t
  unfold Thread.Named at hnamed
  unfold Thread.Labels at hlabel
  split at hlabel
  · exact Or.inl hlabel.2.2
  · rename_i hposition
    rw [hposition] at hnamed
    obtain ⟨rank, hread, hrank⟩ := hnamed trivial
    refine Or.inr ⟨rank, hread, hrank, ?_⟩
    rcases h.isRank with hreset | hset
    · exact Or.inr (hreset ▸ hlabel.2)
    · rw [hread] at hset
      exact Or.inl (Option.some.inj hset ▸ hlabel.2)
  · exact hlabel.elim

/-- A step that does not race prepares notices with the right prefix. -/
theorem World.Ranked.label (h : w.Ranked host) {turn : τ × Timestamp} {key label : Text}
    (hlabel : (w.threads turn.1).Labels w.shared key label) (hturn : ¬ w.Races turn) :
    label = labelOf ((readRank host.env).getD (-1)) := by
  have hreads (hthread : (w.threads turn.1).Reads) :
      w.shared.mpiRank = (readRank host.env).getD (-1) :=
    h.reads turn.1 hthread fun u hu => hturn ⟨hthread, u, hu⟩
  have hnamed := h.named turn.1
  unfold Thread.Named at hnamed
  unfold Thread.Reads at hreads
  unfold Thread.Labels at hlabel
  split at hlabel
  · rename_i hposition
    rw [hposition] at hreads
    rw [← hreads trivial, labelOf, if_neg (Int.not_le.mpr hlabel.2.1)]
    exact hlabel.2.2
  · rename_i hposition
    rw [hposition] at hreads hnamed
    obtain ⟨rank, hread, hrank⟩ := hnamed trivial
    rw [hlabel.2, hreads trivial, hread, Option.getD_some, labelOf, if_pos hrank]
  · exact hlabel.elim

variable [DecidableEq τ]

theorem World.Ranked.step (h : w.Ranked host) (turn : τ × Timestamp) :
    (w.step host turn).Ranked host := by
  obtain ⟨t, now⟩ := turn
  have hmove := Thread.step_move host w.shared t now (w.threads t)
  obtain ⟨hrank, hcases⟩ := hmove.ranks h.isRank
  refine ⟨hrank, fun u hu => ?_, fun u hu hfree => ?_⟩
  · by_cases hut : u = t
    · simp only [World.step, hut, Function.update_self] at hu
      rcases hmove.named_or hu with hbefore | hknown
      · exact h.named t hbefore
      · refine ⟨w.shared.mpiRank, h.isRank.resolve_left fun hreset => ?_, hknown⟩
        omega
    · simp only [World.step, Function.update_of_ne hut] at hu
      exact h.named u hu
  · rcases hcases with hset | hranks | ⟨hsame, hθ, hreads⟩
    · exact hset
    · have ht := hfree t
      simp only [World.step, Function.update_self] at ht
      exact absurd hranks ht
    · have hbefore : ∃ u, (w.threads u).Reads := by
        by_cases hut : u = t
        · simp only [World.step, hut, Function.update_self] at hu
          exact ⟨t, hreads hu⟩
        · simp only [World.step, Function.update_of_ne hut] at hu
          exact ⟨u, hu⟩
      obtain ⟨u', hu'⟩ := hbefore
      refine hsame.trans (h.reads u' hu' fun v hv => ?_)
      by_cases hvt : v = t
      · exact hθ (hvt ▸ hv)
      · have hafter := hfree v
        simp only [World.step, Function.update_of_ne hvt] at hafter
        exact hafter hv

end Ranks

section Run

/-- Nothing has been announced before the first call. -/
theorem Announced.start (Label : Text → Prop) (programs : τ → List Call) (key : Text) :
    Announced host Label (World.start programs) key := by
  refine ⟨fun _ => rfl, fun _ h => h.elim, fun h => ?_, fun _ => rfl⟩
  obtain ⟨lg, hlg, _⟩ := h
  cases hlg

theorem World.Ranked.start (programs : τ → List Call) : (World.start programs).Ranked host :=
  ⟨Or.inl rfl, fun _ h => h.elim, fun _ h => h.elim⟩

variable [DecidableEq τ]

/-- Whatever the threads do, `std::cout` shows the notices of every logger that is ready once, and
no notice of any other logger: each of them behind one prefix, and in order, the last ones perhaps
still to come. The prefix is without a rank or with that of the environment; where it is read while
another logger has reset it, it may have the rank `-1`. No file gets a notice. -/
theorem World.announced_loggers (host : Host) (programs : τ → List Call)
    (schedule : List (τ × Timestamp)) (key : Text) :
    Announced host (IsLabel host.env)
      (runFrom (World.step host) (World.start programs) schedule) key := by
  refine (runFrom_invariant (I := fun w : World τ => w.Invariant host ∧ w.Ranked host ∧
      Announced host (IsLabel host.env) w key) (fun w turn _ h => ?_)
    ⟨.start programs, .start programs, .start _ programs key⟩).2.2
  obtain ⟨hinv, hranked, h⟩ := h
  exact ⟨hinv.step turn, hranked.step turn, h.step hinv turn fun _ => hranked.isLabel⟩

/-- When no prefix is read while another thread has reset the rank, all notices show the rank of the
environment. -/
theorem World.ranked_notices (host : Host) (programs : τ → List Call)
    (schedule : List (τ × Timestamp))
    (hrun : EachStep (World.step host) (fun w turn => ¬ w.Races turn) (World.start programs)
      schedule) (key : Text) :
    Announced host (fun label => label = labelOf ((readRank host.env).getD (-1)))
      (runFrom (World.step host) (World.start programs) schedule) key := by
  refine (runFrom_of_eachStep (I := fun w : World τ => w.Invariant host ∧ w.Ranked host ∧
      Announced host (fun label => label = labelOf ((readRank host.env).getD (-1))) w key)
    (fun w turn h hturn => ?_) hrun ⟨.start programs, .start programs, .start _ programs key⟩).2.2
  obtain ⟨hinv, hranked, h⟩ := h
  exact ⟨hinv.step turn, hranked.step turn,
    h.step hinv turn fun _ hlabel => hranked.label hlabel hturn⟩

end Run

/-! ## A run under MPI -/

private def rankedHost : Host where
  env := Environ.setenv (fun _ => none) (text "EWTS_RANK") (text "3")
  now := default
  linked := false
  creates _ := true
  opens _ := true

/-- Two threads with a logger each. -/
private def rankedPrograms : Bool → List Call
  | false =>
    [.of (text "pet") true .getLogLevel, .of (text "pet") true (.log 30 (some (text "dry")))]
  | true => [.of (text "cfe") true .getLogLevel]

/-- The first logger is ready before the threads take turns. -/
private def rankedSchedule : List (Bool × Timestamp) :=
  (List.replicate 12 false ++ (List.range 40).map fun n => decide (n % 2 = 0)).map (·, default)

theorem World.ranked_notices_pair :
    let w := runFrom (World.step rankedHost) (World.start rankedPrograms) rankedSchedule
    labelOf ((readRank rankedHost.env).getD (-1)) = text "[rank 3] EWTS " ∧
      ∀ key ∈ [text "PET", text "CFE"], (noticesOf key (w.shared.out none)).length = 7 ∧
        Announced rankedHost (fun label => label = labelOf ((readRank rankedHost.env).getD (-1))) w
          key := by
  intro w
  refine ⟨by decide, fun key hkey => ⟨?_, World.ranked_notices _ _ _ (by decide +kernel) key⟩⟩
  revert key hkey
  decide +kernel

end Ewts.Cpp
