import Ewts.Core.Journal
import Ewts.Correctness.Records
import Ewts.Integration.Ngen.Log

/-!
# Standard records of ngen

A message is written piece by piece, each behind the columns of the call. Splitting at white
space takes a line apart again; what it cannot keep are the blanks in front of the piece.
-/

namespace Ewts

namespace Ngen

open Python (spaces splitWhitespace isSpace partsOfLogLine payloadOfLogMsg sentinelStart)

/-! ## Pieces -/

/-- Joined texts contain each of them. -/
theorem infix_intercalate {sep piece : Text} {l : List Text} (h : piece ∈ l) :
    piece <:+: sep.intercalate l := by
  induction l with
  | nil => cases h
  | cons first rest ih =>
    by_cases hrest : rest = []
    · subst hrest
      rw [List.mem_singleton.mp h, List.intercalate_singleton]
    · rw [List.intercalate_cons_of_ne_nil hrest]
      rcases List.mem_cons.mp h with rfl | h
      · exact ⟨[], sep ++ sep.intercalate rest, by simp⟩
      · exact (ih h).trans (List.suffix_append _ _).isInfix

/-- A message that can be read back: printable ASCII and tabs, on lines that may end with
a return. -/
structure LineText (message : Text) : Prop where
  chars : ∀ c ∈ message,
    (0x20 ≤ c.val ∧ c.val ≤ 0x7E) ∨ c = ch '\t' ∨ c = ch '\n' ∨ c = ch '\r'
  returns : ∀ i < message.length, message[i]? = some (ch '\r') →
    message[i + 1]? = none ∨ message[i + 1]? = some (ch '\n')

/-- A piece that holds more than blanks and returns. -/
def Visible (piece : Text) : Bool :=
  piece.any fun c => c ≠ ch ' ' && c ≠ ch '\t' && c ≠ ch '\r'

/-- The visible pieces of a message. -/
def visiblePieces (message : Text) : List Text :=
  (message.splitOn (ch '\n')).filter Visible

/-- The test of `should_log_line`, on the piece without its return. -/
def Logged (piece : Text) : Bool :=
  (dropReturn piece).any fun c => c ≠ ch ' ' && c ≠ ch '\t'

/-- `should_log_line` on a list of lines. -/
theorem filterMap_shouldLogLine (l : List Text) :
    l.filterMap shouldLogLine = (l.filter Logged).map dropReturn := by
  induction l with
  | nil => rfl
  | cons s l ih =>
    have hline : shouldLogLine s = if Logged s then some (dropReturn s) else none := rfl
    cases hlogged : Logged s with
    | true =>
      rw [hlogged, if_pos rfl] at hline
      rw [List.filterMap_cons_some hline, List.filter_cons_of_pos hlogged, List.map_cons, ih]
    | false =>
      rw [hlogged, if_neg Bool.false_ne_true] at hline
      rw [List.filterMap_cons_none hline, List.filter_cons_of_neg (by rw [hlogged]; simp), ih]

theorem mem_of_mem_dropReturn {piece : Text} {c : CodePoint} (h : c ∈ dropReturn piece) :
    c ∈ piece := by
  unfold dropReturn at h
  split at h
  · exact List.mem_of_mem_dropLast h
  · exact h

theorem mem_dropReturn {piece : Text} {c : CodePoint} (h : c ∈ piece) (hc : c ≠ ch '\r') :
    c ∈ dropReturn piece := by
  unfold dropReturn
  split
  · rename_i hlast
    obtain ⟨front, rfl⟩ := List.getLast?_eq_some_iff.mp hlast
    rw [List.dropLast_concat]
    rcases List.mem_append.mp h with h | h
    · exact h
    · exact absurd (List.mem_singleton.mp h) hc
  · exact h

theorem dropReturn_isPrefix (piece : Text) : dropReturn piece <+: piece := by
  unfold dropReturn
  split
  · exact List.dropLast_prefix piece
  · exact List.prefix_refl piece

theorem piece_isInfix {message piece : Text} (hp : piece ∈ message.splitOn (ch '\n')) :
    piece <:+: message := by
  have hinfix : piece <:+: [ch '\n'].intercalate (message.splitOn (ch '\n')) :=
    infix_intercalate hp
  rwa [List.intercalate_splitOn] at hinfix

section Pieces

variable {message piece : Text} (h : LineText message) (hp : piece ∈ message.splitOn (ch '\n'))
include h hp

/-- A return ends its piece. -/
theorem return_ends_piece {a b : Text} (heq : piece = a ++ ch '\r' :: b) : b = [] := by
  cases b with
  | nil => rfl
  | cons d b =>
    obtain ⟨x, y, hmessage⟩ := piece_isInfix hp
    have hd : d = ch '\n' := by
      have hmessage' : message = (x ++ a) ++ ch '\r' :: d :: (b ++ y) := by
        rw [← hmessage, heq]
        simp
      have hnext := h.returns (x ++ a).length (by rw [hmessage']; simp)
      rw [hmessage', List.getElem?_append_right (Nat.le_refl _),
        List.getElem?_append_right (Nat.le_succ _)] at hnext
      simpa using hnext
    exfalso
    apply not_mem_of_mem_splitOn hp
    rw [heq, hd]
    simp

/-- Without its return a piece holds printable characters and tabs. -/
theorem dropReturn_chars : ∀ c ∈ dropReturn piece,
    (0x20 ≤ c.val ∧ c.val ≤ 0x7E) ∨ c = ch '\t' := by
  intro c hc
  have hmem : c ∈ piece := mem_of_mem_dropReturn hc
  rcases h.chars c ((piece_isInfix hp).subset hmem) with hprint | htab | hlf | hcr
  · exact Or.inl hprint
  · exact Or.inr htab
  · rw [hlf] at hmem
    exact absurd hmem (not_mem_of_mem_splitOn hp)
  · -- A return ends the piece, so that it was dropped.
    exfalso
    subst hcr
    obtain ⟨a, b, hab⟩ := List.append_of_mem hmem
    have hb := return_ends_piece h hp hab
    subst hb
    unfold dropReturn at hc
    rw [hab, List.getLast?_concat, if_pos rfl, List.dropLast_concat] at hc
    obtain ⟨a', b', rfl⟩ := List.append_of_mem hc
    rw [List.append_assoc, List.cons_append] at hab
    have hnil := return_ends_piece h hp hab
    exact absurd (List.append_eq_nil_iff.mp hnil).2 (List.cons_ne_nil _ _)

/-- A piece is logged exactly when it is visible. -/
theorem logged_eq_visible : Logged piece = Visible piece := by
  rw [Bool.eq_iff_iff]
  simp only [Logged, Visible, List.any_eq_true, Bool.and_eq_true, decide_eq_true_eq]
  constructor
  · rintro ⟨c, hc, hblank⟩
    refine ⟨c, mem_of_mem_dropReturn hc, hblank, ?_⟩
    rintro rfl
    exact absurd (dropReturn_chars h hp _ hc) (by decide)
  · rintro ⟨c, hc, hblank, hreturn⟩
    exact ⟨c, mem_dropReturn hc hreturn, hblank⟩

end Pieces

/-- What a call logs of its message: the visible pieces, without their returns. -/
theorem logged_lines {message : Text} (h : LineText message) :
    (getlines message).filterMap shouldLogLine = (visiblePieces message).map dropReturn := by
  rw [filterMap_shouldLogLine, getlines_eq, filter_physicalLines (show Logged [] = false from rfl),
    visiblePieces,
    List.filter_congr fun piece hp => logged_eq_visible h hp]

/-! ## Lines -/

/-- The blanks in front of a piece. -/
def isLead (c : CodePoint) : Bool := c = ch ' ' || c = ch '\t'

/-- What a reader keeps of a piece. -/
def readPiece (piece : Text) : Text := (dropReturn piece).dropWhile isLead

theorem toUpper_of_no_lower {id : Text} (h : ∀ c ∈ id, ¬(0x61 ≤ c.val ∧ c.val ≤ 0x7A)) :
    toUpper id = id := by
  calc id.map CodePoint.toUpper = id.map fun c => c := by
        apply List.map_congr_left
        intro c hc
        rw [CodePoint.toUpper, if_neg (h c hc)]
    _ = id := List.map_id' _

/-- The columns of a call in front of a piece. -/
theorem logPrefix_eq (c : Call) {level : LogLevel} (hlevel : c.messageLevel = level.value) :
    ∃ gap, c.logPrefix = c.clock.line.iso ++ ([ch ' '] ++ ((toUpper c.moduleName).take 8 ++
      (spaces (8 - c.moduleName.length) ++ [ch ' '] ++
        (logLevelName level.value ++ spaces gap)))) := by
  refine ⟨7 - (logLevelName level.value).length, ?_⟩
  have hfixed : levelToFixedString level.value =
      logLevelName level.value ++ spaces (7 - (logLevelName level.value).length) := by
    cases level <;> rfl
  rw [Call.logPrefix, padEwtsId_eq, hlevel, hfixed]
  simp

/-- No line holds an opening sentinel when the message does not. -/
theorem not_infix_line (c : Call) {level : LogLevel} (hlevel : c.messageLevel = level.value)
    {piece : Text} (hpiece : ¬ sentinelStart <:+: piece) :
    ¬ sentinelStart <:+: c.logPrefix ++ ch ' ' :: dropReturn piece := by
  have hline : c.logPrefix ++ ch ' ' :: dropReturn piece = c.clock.line.iso ++ ch ' ' ::
      (padEwtsId c.moduleName ++ ch ' ' :: (levelToFixedString c.messageLevel ++
        ch ' ' :: dropReturn piece)) := by
    simp [Call.logPrefix]
  have hid : (padEwtsId c.moduleName).length < 10 := by
    rw [length_padEwtsId]
    decide
  have hlevelLength : (levelToFixedString c.messageLevel).length < 10 := by
    rw [hlevel]
    cases level <;> decide
  rw [hline]
  apply Python.not_infix_columns c.clock.line hid hlevelLength
  exact fun h => hpiece (h.trans (dropReturn_isPrefix piece).isInfix)

theorem readPiece_lead (piece : Text) :
    ∀ y ∈ (dropReturn piece).takeWhile isLead, isSpace y = true := by
  intro y hy
  have hblank := List.mem_takeWhile_imp hy
  simp only [isLead, Bool.or_eq_true, decide_eq_true_eq] at hblank
  rcases hblank with rfl | rfl <;> rfl

/-- A visible piece is read from a character on that is no white space. -/
theorem readPiece_head {message piece : Text} (h : LineText message)
    (hp : piece ∈ message.splitOn (ch '\n')) (hvisible : Visible piece = true) :
    ∃ x rest, readPiece piece = x :: rest ∧ isSpace x = false := by
  have hlogged : Logged piece = true := (logged_eq_visible h hp).trans hvisible
  have hne : readPiece piece ≠ [] := by
    intro hnil
    have hlead := List.dropWhile_eq_nil_iff.mp hnil
    obtain ⟨y, hy, hyblank⟩ := List.any_eq_true.mp hlogged
    have hylead := hlead y hy
    simp only [isLead, Bool.or_eq_true, decide_eq_true_eq] at hylead
    simp only [ne_eq, decide_not, Bool.and_eq_true, Bool.not_eq_true', decide_eq_false_iff_not]
      at hyblank
    exact hylead.elim hyblank.1 hyblank.2
  obtain ⟨x, rest, hread⟩ := List.exists_cons_of_ne_nil hne
  have hfirst : isLead x = false := by
    have hhead := List.head?_dropWhile_not isLead (dropReturn piece)
    rw [show (dropReturn piece).dropWhile isLead = x :: rest from hread] at hhead
    exact hhead
  have hmem : x ∈ dropReturn piece := by
    apply (List.dropWhile_sublist isLead).subset
    rw [show (dropReturn piece).dropWhile isLead = x :: rest from hread]
    exact List.mem_cons_self ..
  refine ⟨x, rest, hread, ?_⟩
  simp only [isLead, Bool.or_eq_false_iff, decide_eq_false_iff_not] at hfirst
  rcases dropReturn_chars h hp x hmem with hprint | htab
  · have hspace : x.val ≠ 0x20 := fun hval => hfirst.1 (Fin.ext hval)
    exact Python.isSpace_of_graphic (by omega)
  · exact absurd htab hfirst.2

section Reader

variable {F : Type} {fl : Floats F} (reader : Python.IsoReader) {c : Call} {level : LogLevel}
  {piece : Text}

/-- Strict parsing of a line gives its columns, and the piece without the blanks around it. -/
theorem partsOfLogLine_line (hne : c.moduleName ≠ [])
    (hid : ∀ x ∈ c.moduleName, (0x21 ≤ x.val ∧ x.val ≤ 0x7E) ∧ ¬(0x61 ≤ x.val ∧ x.val ≤ 0x7A))
    (hlevel : c.messageLevel = level.value) (h : LineText c.message)
    (hsentinel : ¬ sentinelStart <:+: c.message)
    (hp : piece ∈ c.message.splitOn (ch '\n')) (hvisible : Visible piece = true) :
    partsOfLogLine fl reader (c.logPrefix ++ ch ' ' :: dropReturn piece) false =
      .ok ⟨some (Python.dateTimeOf c.clock.line), some (c.moduleName.take 8),
        some (logLevelName level.value), some (readPiece piece), none⟩ := by
  have hsplit : splitWhitespace 3 (c.logPrefix ++ ch ' ' :: dropReturn piece) =
      [c.clock.line.iso, c.moduleName.take 8, logLevelName level.value, readPiece piece] := by
    obtain ⟨gap, hpre⟩ := logPrefix_eq c hlevel
    obtain ⟨x, rest, hread, hx⟩ := readPiece_head h hp hvisible
    have hpiece : dropReturn piece =
        (dropReturn piece).takeWhile isLead ++ x :: rest := by
      rw [← hread]
      exact List.takeWhile_append_dropWhile.symm
    have hlead := readPiece_lead piece
    generalize (dropReturn piece).takeWhile isLead = lead at *
    have hline : c.logPrefix ++ ch ' ' :: dropReturn piece = c.clock.line.iso ++ ([ch ' '] ++
        (c.moduleName.take 8 ++ ((spaces (8 - c.moduleName.length) ++ [ch ' ']) ++
          (logLevelName level.value ++ ((spaces gap ++ ch ' ' :: lead) ++ x :: rest))))) := by
      rw [hpre, toUpper_of_no_lower fun y hy => (hid y hy).2, hpiece]
      simp
    have hspaces : ∀ n, ∀ y ∈ spaces n, isSpace y = true := fun n => Python.isSpace_of_mem_spaces
    have hname : logLevelName level.value ≠ [] ∧
        ∀ y ∈ logLevelName level.value, isSpace y = false := by
      cases level <;> decide
    have hidSpace : ∀ y ∈ c.moduleName.take 8, isSpace y = false :=
      fun y hy => Python.isSpace_of_graphic (hid y (List.mem_of_mem_take hy)).1
    have hone : ∀ y ∈ [ch ' '], isSpace y = true := by decide
    have hidGap := List.forall_mem_append.mpr ⟨hspaces (8 - c.moduleName.length), hone⟩
    have hlevelGap : ∀ y ∈ spaces gap ++ ch ' ' :: lead, isSpace y = true :=
      List.forall_mem_append.mpr ⟨hspaces gap, List.forall_mem_cons.mpr ⟨rfl, hlead⟩⟩
    rw [hline, Python.splitWhitespace_field c.clock.line.iso_ne_nil
        (fun y hy => (Python.iso_plain hy).1) (List.cons_ne_nil _ _) hone,
      Python.splitWhitespace_field (by simp [hne]) hidSpace (by simp) hidGap,
      Python.splitWhitespace_field hname.1 hname.2 (by simp) hlevelGap,
      Python.splitWhitespace_rest hx, hread]
  have hpayload : payloadOfLogMsg fl (c.logPrefix ++ ch ' ' :: dropReturn piece) = .ok none := by
    rw [payloadOfLogMsg, Python.findall_of_not_infix]
    apply not_infix_line c hlevel
    exact fun hi => hsentinel (hi.trans (piece_isInfix hp))
  have htz : (Python.dateTimeOf c.clock.line).tzinfo = some 0 := rfl
  simp only [partsOfLogLine, hsplit, reader.fromisoformat_iso, htz, ite_true, Python.withPayload,
    hpayload]
  rfl

/-- A line is one line. -/
theorem newline_not_mem_line
    (hid : ∀ x ∈ c.moduleName, (0x21 ≤ x.val ∧ x.val ≤ 0x7E) ∧ ¬(0x61 ≤ x.val ∧ x.val ≤ 0x7A))
    (hlevel : c.messageLevel = level.value) (h : LineText c.message)
    (hp : piece ∈ c.message.splitOn (ch '\n')) :
    ch '\n' ∉ c.logPrefix ++ ch ' ' :: dropReturn piece := by
  obtain ⟨gap, hpre⟩ := logPrefix_eq c hlevel
  have hspaces : ∀ n, ch '\n' ∉ spaces n := by
    intro n hmem
    exact absurd (List.eq_of_mem_replicate hmem) (by decide)
  have hname : ch '\n' ∉ logLevelName level.value := by cases level <;> decide
  rw [hpre, toUpper_of_no_lower fun x hx => (hid x hx).2]
  simp only [List.mem_append, List.mem_cons, List.not_mem_nil, or_false, hspaces, hname, false_or,
    ch_inj, Char.reduceEq]
  rintro ((hiso | hmem) | hmem)
  · have hbreak := (Python.iso_plain hiso).2.1
    exact absurd hbreak (by decide)
  · exact absurd (hid _ (List.mem_of_mem_take hmem)).1.1 (by decide)
  · rcases dropReturn_chars h hp _ hmem with hprint | htab
    · exact absurd hprint.1 (by decide)
    · exact absurd htab (by decide)

/-- The text of a call's lines. -/
theorem flatten_lines (h : LineText c.message) : c.lines.flatten = journalText
    ((visiblePieces c.message).map fun piece => c.logPrefix ++ ch ' ' :: dropReturn piece) := by
  rw [Call.lines, logged_lines h, journalText, List.map_map, List.map_map]
  simp only [Function.comp_def, List.append_assoc, List.cons_append]

/-- A call that passes the filter writes one line for each visible piece, in order, to the file
of its module, the unified file or standard output, and strict parsing reads every line back. -/
theorem log_lines_read_back (p : Process) (os : Os) (order : HashOrder) (json : Json.TreeReader)
    (henabled : (p.initIfNeeded os order c.clock.file).logger.loggingEnabled = true)
    (hpass : (p.initIfNeeded os order c.clock.file).logger.passes c = true)
    (hlevel : c.messageLevel = level.value) (hstatus : level ≠ .STATUS) (hne : c.moduleName ≠ [])
    (hid : ∀ x ∈ c.moduleName, (0x21 ≤ x.val ∧ x.val ≤ 0x7E) ∧ ¬(0x61 ≤ x.val ∧ x.val ≤ 0x7A))
    (h : LineText c.message) (hsentinel : ¬ sentinelStart <:+: c.message) :
    let q := (p.initIfNeeded os order c.clock.file).prepared os c
    ∃ lines, q.Wrote (p.log fl os order json c) (journalText lines) (q.sink c.moduleName) ∧
      List.Forall₂ (fun line piece => ch '\n' ∉ line ∧ partsOfLogLine fl reader line false =
          .ok ⟨some (Python.dateTimeOf c.clock.line), some (c.moduleName.take 8),
            some (logLevelName level.value), some (readPiece piece), none⟩)
        lines (visiblePieces c.message) := by
  intro q
  have hstatus' : c.messageLevel ≠ LogLevel.STATUS.value := by
    rw [hlevel]
    cases level <;> first | decide | exact absurd rfl hstatus
  refine ⟨(visiblePieces c.message).map fun piece => c.logPrefix ++ ch ' ' :: dropReturn piece,
    ?_, ?_⟩
  · rw [← flatten_lines h]
    exact Process.log_wrote fl henabled hpass hstatus' json
  · rw [List.forall₂_map_left_iff, List.forall₂_same]
    intro piece hpiece
    obtain ⟨hp, hvisible⟩ := List.mem_filter.mp hpiece
    exact ⟨newline_not_mem_line hid hlevel h hp,
      partsOfLogLine_line reader hne hid hlevel h hsentinel hp hvisible⟩

end Reader

/-- Two pieces with blanks and a return, a blank one and an unfinished one. -/
private def sampleCall : Call where
  moduleName := text "TOPOFLOW-GLACIER"
  messageLevel := 30
  message := text "  first \t\r\n \t\r\n\tsecond\nthird"
  clock := default

/-- The first call of a process, which opens the unified file and writes three lines to it. -/
theorem log_lines_read_back_glacier :
    ∃ lines, ((Process.start logDirEnv fun _ => none).log SampleFloat.floats (levelsOs [])
        insertionOrder .flat sampleCall).disk.files (text "/run/ngen_20260618T181315.log") =
          some (journalText lines) ∧
      List.Forall₂ (fun line message => ∃ parts,
          partsOfLogLine SampleFloat.floats .columns line false = .ok parts ∧
            parts.module = some (text "TOPOFLOW") ∧ parts.level = some (text "WARNING") ∧
              parts.msg = some message ∧ parts.payload = none)
        lines [text "first \t", text "second", text "third"] := by
  have hid : ∀ x ∈ sampleCall.moduleName,
      (0x21 ≤ x.val ∧ x.val ≤ 0x7E) ∧ ¬(0x61 ≤ x.val ∧ x.val ≤ 0x7A) := by decide
  have hmessage : LineText sampleCall.message := ⟨by decide, by decide⟩
  have hlevel : sampleCall.messageLevel = LogLevel.WARNING.value := by decide
  have hstatus : LogLevel.WARNING ≠ .STATUS := by decide
  obtain ⟨lines, hwrote, hread⟩ := log_lines_read_back (F := SampleFloat) .columns
    (Process.start logDirEnv fun _ => none) (levelsOs []) insertionOrder .flat rfl (by decide)
    hlevel hstatus (by decide) hid hmessage (by decide)
  have hsink : (((Process.start logDirEnv fun _ => none).initIfNeeded (levelsOs []) insertionOrder
      sampleCall.clock.file).prepared (levelsOs []) sampleCall).sink sampleCall.moduleName =
        some ⟨text "/run/ngen_20260618T181315.log", 0⟩ := rfl
  rw [hsink] at hwrote
  refine ⟨lines, hwrote.2.2 [] ⟨rfl, rfl⟩, ?_⟩
  have hpieces : [text "first \t", text "second", text "third"] =
      (visiblePieces sampleCall.message).map readPiece := by decide
  rw [hpieces, List.forall₂_map_right_iff]
  exact hread.imp fun line piece ⟨_, hparts⟩ => ⟨_, hparts, rfl, rfl, rfl, rfl⟩

end Ngen

end Ewts
