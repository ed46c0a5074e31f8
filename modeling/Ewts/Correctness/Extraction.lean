import Ewts.Integration.Ngen.Payload
import Ewts.Runtime.Python.Payload

/-!
# Two searches for a payload

ngen looks for a pair of sentinels with `std::string::find`, Python with a non-greedy
pattern. Both end up with the text between the first opening sentinel and the first closing
one behind it.
-/

namespace Ewts

open Ngen (extractJsonPayload missingSentinelMessage kPayloadBeginSentinel kPayloadEndSentinel)
open Python (findall findallSkip matchAt upToEnd sentinelStart sentinelEnd)

/-- An opening sentinel that has a closing one behind it. -/
def Bracketed (s : Text) : Prop := ∃ a b c, s = a ++ sentinelStart ++ b ++ sentinelEnd ++ c

/-- A text in which a sentinel occurs. -/
def HasSentinel (s : Text) : Prop := sentinelStart <:+: s ∨ sentinelEnd <:+: s

theorem Bracketed.infix_start {s : Text} (h : Bracketed s) : sentinelStart <:+: s := by
  obtain ⟨a, b, c, rfl⟩ := h
  exact ⟨a, b ++ sentinelEnd ++ c, by simp⟩

theorem Bracketed.infix_end {s : Text} (h : Bracketed s) : sentinelEnd <:+: s := by
  obtain ⟨a, b, c, rfl⟩ := h
  exact ⟨a ++ sentinelStart ++ b, c, rfl⟩

/-! ## The pattern -/

/-- What the content of a match leaves out is the closing sentinel and the rest. -/
theorem eq_of_upToEnd {s body rest : Text} (h : upToEnd s = some (body, rest)) :
    s = body ++ sentinelEnd ++ rest := by
  induction s generalizing body with
  | nil => cases h
  | cons c s ih =>
    rw [upToEnd] at h
    split at h
    · rename_i hend
      cases h
      obtain ⟨t, ht⟩ := List.isPrefixOf_iff_prefix.mp hend
      rw [← ht, List.drop_left]
      rfl
    · split at h
      · cases h
      · obtain ⟨r, hr, heq⟩ := Option.map_eq_some_iff.mp h
        cases heq
        rw [List.cons_append, List.cons_append, ← ih hr]

/-- A match is bracketed. -/
theorem bracketed_of_matchAt {s : Text} {r : Text × Text} (h : matchAt s = some r) :
    Bracketed s := by
  rw [matchAt] at h
  split at h
  · rename_i hstart
    obtain ⟨t, ht⟩ := List.isPrefixOf_iff_prefix.mp hstart
    rw [← ht, List.drop_left] at h
    refine ⟨[], r.1, r.2, ?_⟩
    rw [← ht, eq_of_upToEnd h]
    simp
  · cases h

/-- Without such a pair there is no match. -/
theorem findall_of_not_bracketed {s : Text} (h : ¬ Bracketed s) : findall s = [] := by
  unfold findall
  induction s with
  | nil => rfl
  | cons c s ih =>
    have hnone : matchAt (c :: s) = none := by
      cases hm : matchAt (c :: s) with
      | none => rfl
      | some r => exact absurd (bracketed_of_matchAt hm) h
    rw [findallSkip, hnone]
    apply ih
    rintro ⟨a, b, d, rfl⟩
    exact h ⟨c :: a, b, d, rfl⟩

/-! ## Both searches -/

/-- The first pair decides both searches. -/
theorem extraction_bracketed {s : Text} (hnl : ch '\n' ∉ s) (h : Bracketed s) :
    ∃ json more, extractJsonPayload s = .ok json ∧ findall s = json :: more ∧ json ≠ s := by
  obtain ⟨front, behind, hs, hfront⟩ :=
    exists_first_infix (by decide : sentinelStart ≠ []) h.infix_start
  have hbegin : s.dropInfix? kPayloadBeginSentinel = some (front, behind) := by
    rw [hs]
    exact dropInfix?_append (by decide : ch '<' ∉ text "MSG_DATA>") hfront
  obtain ⟨json, rest, hbehind, hjson⟩ := exists_first_infix
    (by decide : sentinelEnd ≠ []) ((bracketed_iff hbegin).mp h)
  have hend : behind.dropInfix? kPayloadEndSentinel = some (json, rest) := by
    rw [hbehind]
    exact dropInfix?_append (by decide : ch '<' ∉ text "/MSG_DATA>") hjson
  obtain ⟨a, b, hsome⟩ := dropInfix?_isSome_of_infix h.infix_end
  have hsome' : s.dropInfix? kPayloadEndSentinel = some (a, b) := hsome
  have hline : ch '\n' ∉ json := by
    intro hmem
    apply hnl
    rw [hs, hbehind]
    simp [hmem]
  refine ⟨json, findall rest, ?_, ?_, ?_⟩
  · simp only [extractJsonPayload, hbegin, hsome', hend]
  · rw [hs, hbehind]
    exact Python.findall_append hfront hjson hline rest
  · intro heq
    have hpos : 0 < sentinelStart.length := by decide
    have hlen := congrArg List.length hs
    simp only [hbehind, heq, List.length_append] at hlen
    omega

/-- A sentinel without its partner is reported as missing. -/
theorem extraction_missing {s : Text} (hs : HasSentinel s) (h : ¬ Bracketed s) :
    extractJsonPayload s = .error (missingSentinelMessage kPayloadBeginSentinel) ∨
      extractJsonPayload s = .error (missingSentinelMessage kPayloadEndSentinel) := by
  by_cases hbegin : sentinelStart <:+: s
  · obtain ⟨front, behind, hd⟩ := dropInfix?_isSome_of_infix hbegin
    have hd' : s.dropInfix? kPayloadBeginSentinel = some (front, behind) := hd
    have hbehind : behind.dropInfix? kPayloadEndSentinel = none :=
      dropInfix?_eq_none fun hend => h ((bracketed_iff hd).mpr hend)
    refine Or.inr ?_
    cases hend : s.dropInfix? kPayloadEndSentinel with
    | none => simp only [extractJsonPayload, hd', hend]
    | some r => simp only [extractJsonPayload, hd', hend, hbehind]
  · have hnone : s.dropInfix? kPayloadBeginSentinel = none := dropInfix?_eq_none hbegin
    obtain ⟨a, b, hsome⟩ := dropInfix?_isSome_of_infix (hs.resolve_left hbegin)
    have hsome' : s.dropInfix? kPayloadEndSentinel = some (a, b) := hsome
    exact Or.inl (by simp only [extractJsonPayload, hnone, hsome'])

/-- A text without sentinels is taken as it is. -/
theorem extraction_plain {s : Text} (h : ¬ HasSentinel s) : extractJsonPayload s = .ok s := by
  rw [HasSentinel, not_or] at h
  have hbegin : s.dropInfix? kPayloadBeginSentinel = none := dropInfix?_eq_none h.1
  have hend : s.dropInfix? kPayloadEndSentinel = none := dropInfix?_eq_none h.2
  simp only [extractJsonPayload, hbegin, hend]

/-- ngen extracts the first match of the Python pattern, the whole text when it has no
sentinel, and reports a missing sentinel in every other case. -/
theorem extraction_agrees {s : Text} (hnul : ∀ c ∈ s, c ≠ 0) (hnl : ch '\n' ∉ s) :
    (∀ json, (HasSentinel s ∧ extractJsonPayload (cStr s) = .ok json) ↔
      (findall s).head? = some json) ∧
    (extractJsonPayload (cStr s) = .ok s ↔ ¬ HasSentinel s) ∧
    (extractJsonPayload (cStr s) = .error (missingSentinelMessage kPayloadBeginSentinel) ∨
        extractJsonPayload (cStr s) = .error (missingSentinelMessage kPayloadEndSentinel) ↔
      HasSentinel s ∧ ¬ Bracketed s) := by
  rw [cStr_of_no_nul hnul]
  by_cases hpair : Bracketed s
  · have hsentinel : HasSentinel s := Or.inl hpair.infix_start
    obtain ⟨json, more, hextract, hfind, hne⟩ := extraction_bracketed hnl hpair
    simp [hextract, hfind, hsentinel, hpair, hne]
  · rw [findall_of_not_bracketed hpair]
    by_cases hsentinel : HasSentinel s
    · rcases extraction_missing hsentinel hpair with hextract | hextract <;>
        simp [hextract, hsentinel, hpair]
    · simp [extraction_plain hsentinel, hsentinel]

/-- Sentinels in the wrong order in front of a pair, and one nested in it. -/
private def tangledText : Text :=
  text "</MSG_DATA> x <MSG_DATA>a<MSG_DATA>b</MSG_DATA></MSG_DATA>"

theorem extraction_agrees_tangled :
    extractJsonPayload (cStr tangledText) = .ok (text "a<MSG_DATA>b") ∧
      extractJsonPayload (cStr tangledText) ≠ .ok tangledText := by
  have hsentinel : HasSentinel tangledText := Or.inr (by decide)
  have hagrees := extraction_agrees (s := tangledText) (by decide) (by decide)
  refine ⟨((hagrees.1 (text "a<MSG_DATA>b")).mpr ?_).2, ?_⟩
  · rfl
  · exact fun hplain => hagrees.2.1.mp hplain hsentinel

end Ewts
