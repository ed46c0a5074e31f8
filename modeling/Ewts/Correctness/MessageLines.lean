import Ewts.Correctness.Lines
import Ewts.Correctness.NativeRegistry
import Ewts.Runtime.Python.Logger

/-!
# Three ways to split a message

The C writer runs `strtok_r`, Python calls `splitlines` and ngen reads with `getline`. All
three cut at newlines and differ in the empty pieces that they keep, so that they agree on
every message once the blank lines are left out. The two native ones format their text first,
and drop what `vsnprintf` cannot count in an `int`.
-/

namespace Ewts

open Ngen (getlines shouldLogLine dropReturn Logged)

/-! ## Pieces -/

/-- `splitlines` returns the pieces, but for an empty last one, when newlines are the only
boundaries. -/
theorem splitOn_eq_splitlines {s : Text} (h : ∀ c ∈ s, Python.isLineBreak c = true → c = ch '\n') :
    s.splitOn (ch '\n') = Python.splitlines s ∨
      s.splitOn (ch '\n') = Python.splitlines s ++ [[]] := by
  unfold Python.splitlines
  induction s with
  | nil => exact Or.inr rfl
  | cons c s ih =>
    have ih := ih fun d hd => h d (List.mem_cons_of_mem _ hd)
    rw [List.splitOn_cons_eq_if_modifyHead, Python.splitlinesFrom.eq_def]
    simp only [Bool.false_and, Bool.false_eq_true, ite_false]
    by_cases hc : c = ch '\n'
    · subst hc
      rw [if_pos (beq_self_eq_true _), if_pos (by rfl)]
      rcases ih with ih | ih
      · exact Or.inl (by rw [ih]; rfl)
      · exact Or.inr (by rw [ih]; rfl)
    · have hbreak : ¬ Python.isLineBreak c = true := fun hb => hc (h c (List.mem_cons_self ..) hb)
      rw [if_neg (fun heq => hc (eq_of_beq heq)), if_neg hbreak]
      rcases ih with ih | ih
      · obtain ⟨first, rest, hsplit⟩ :=
          List.exists_cons_of_ne_nil (List.splitOn_ne_nil (ch '\n') s)
        rw [← ih, hsplit]
        exact Or.inl rfl
      · rw [ih]
        cases Python.splitlinesFrom false s with
        | nil => exact Or.inl rfl
        | cons first rest => exact Or.inr rfl

/-! ## Written lines -/

/-- A line of spaces and tabs. -/
def isBlankLine (line : Text) : Bool := line.all fun c => c = ch ' ' || c = ch '\t'

/-- The pieces of a message that are no blank lines. -/
def printedPieces (message : Text) : List Text :=
  (message.splitOn (ch '\n')).filter (!isBlankLine ·)

/-- The message line in a written line: behind the columns and a blank, before the newline. -/
def messageLine (columns written : Text) : Text := (written.drop (columns.length + 1)).dropLast

/-- The message lines that were written behind the columns, blank ones left out. -/
def printedLines (columns : Text) (written : List Text) : List Text :=
  (written.map (messageLine columns)).filter (!isBlankLine ·)

/-- The columns of the C writer. -/
def C.columns (now : Timestamp) (padded : Text) (level : Int) : Text :=
  now.iso ++ ch ' ' :: padded ++ ch ' ' :: C.levelNamePadded level

theorem messageLine_line (columns line : Text) :
    messageLine columns (columns ++ ch ' ' :: line ++ [ch '\n']) = line := by
  have hdrop : (columns ++ ch ' ' :: line ++ [ch '\n']).drop (columns.length + 1) =
      line ++ [ch '\n'] := by
    rw [List.append_assoc, ← List.drop_drop, List.drop_left]
    rfl
  rw [messageLine, hdrop, List.dropLast_concat]

/-- A line without message. -/
theorem messageLine_columns (columns : Text) :
    messageLine columns (columns ++ [ch '\n']) = [] := by
  rw [messageLine, ← List.drop_drop, List.drop_left]
  rfl

/-- Lines that are written one by one behind the columns. -/
theorem printedLines_map (columns : Text) (lines : List Text) :
    printedLines columns (lines.map fun line => columns ++ ch ' ' :: line ++ [ch '\n']) =
      lines.filter (!isBlankLine ·) := by
  have hmap : (messageLine columns ∘ fun line => columns ++ ch ' ' :: line ++ [ch '\n']) = id :=
    funext fun line => messageLine_line columns line
  rw [printedLines, List.map_map, hmap, List.map_id]

/-- The C writer prints the pieces. -/
theorem printedLines_standaloneLines (now : Timestamp) (padded : Text) (level : Int)
    (message : Text) : printedLines (C.columns now padded level)
      (C.standaloneLines now padded level message) = printedPieces message := by
  have hpieces : (C.strtokLines [] message).filter (!isBlankLine ·) = printedPieces message := by
    have hblank : ∀ line : Text, (decide (line ≠ []) && !isBlankLine line) = !isBlankLine line := by
      intro line
      cases line <;> rfl
    rw [C.strtokLines_eq, List.filter_filter, printedPieces, ← filter_physicalLines rfl]
    exact List.filter_congr fun line _ => (Bool.and_comm _ _).trans (hblank line)
  rw [← hpieces, C.standaloneLines]
  split
  · rename_i hnone
    rw [hnone, printedLines, List.map_singleton]
    exact congrArg (fun line => [line].filter (!isBlankLine ·)) (messageLine_columns _)
  · exact printedLines_map (C.columns now padded level) _

/-- Python prints the pieces of a message without other line boundaries. -/
theorem filter_splitLines {message : Text}
    (h : ∀ c ∈ message, Python.isLineBreak c = true → c = ch '\n') :
    (Python.splitLines message).filter (!isBlankLine ·) = printedPieces message := by
  have hlines : (Python.splitLines message).filter (!isBlankLine ·) =
      (Python.splitlines message).filter (!isBlankLine ·) := by
    unfold Python.splitLines
    split
    · rename_i hnil
      rw [hnil]
      rfl
    · rfl
  rw [hlines, printedPieces]
  rcases splitOn_eq_splitlines h with heq | heq
  · rw [heq]
  · rw [heq, List.filter_append]
    exact (List.append_nil _).symm

/-- What a record leaves in the sink of a standalone logger. -/
theorem sunk_write (u : Python.Unicode) {lg : Python.EwtsLogger} (now : Timestamp) {level : Int}
    (message : Text) (hstandalone : lg.bridge = false) (hpass : level = 60 ∨ lg.minLevel ≤ level) :
    (Python.write u lg now level message).filterMap Python.Output.sunk =
      (Python.splitLines message).map fun line =>
        Python.formatPrefix u now lg.ewtsId level ++ ch ' ' :: line ++ [ch '\n'] := by
  rw [Python.write_standalone u now message hstandalone hpass, List.filterMap_map]
  cases lg.logPath with
  | none => exact congrFun List.filterMap_eq_map _
  | some logPath => exact congrFun List.filterMap_eq_map _

/-- ngen prints the pieces of a message without returns. -/
theorem printedLines_lines {c : Ngen.Call} (h : ch '\r' ∉ c.message) :
    printedLines c.logPrefix c.lines = printedPieces c.message := by
  have hlogged : ∀ piece ∈ c.message.splitOn (ch '\n'),
      dropReturn piece = piece ∧ Logged piece = !isBlankLine piece := by
    intro piece hpiece
    have hdrop : dropReturn piece = piece := by
      rw [dropReturn, if_neg]
      intro hlast
      exact h ((Ngen.piece_isInfix hpiece).subset (List.mem_of_getLast? hlast))
    refine ⟨hdrop, ?_⟩
    rw [Logged, hdrop, isBlankLine, List.not_all_eq_any_not]
    simp only [Bool.not_or, decide_not]
  have hlines : (getlines c.message).filterMap shouldLogLine = printedPieces c.message := by
    rw [Ngen.filterMap_shouldLogLine, Ngen.getlines_eq, filter_physicalLines rfl, printedPieces,
      List.filter_congr fun piece hpiece => (hlogged piece hpiece).2]
    refine (List.map_congr_left fun piece hpiece => ?_).trans (List.map_id _)
    exact (hlogged piece (List.mem_of_mem_filter hpiece)).1
  rw [Ngen.Call.lines, printedLines_map, hlines, printedPieces, List.filter_filter]
  simp only [Bool.and_self]

/-- Behind its filter a state that does not reach the bridge writes a formatted message. -/
theorem C.vLogFormat_standalone {expand : Text → Option Text} {env : Environ} {linked : Bool}
    {st : C.LoggerState} {level : Int} {fmt msg : Text} (henabled : st.enabled = true)
    (hlevel : st.level ≤ level) (hroute : (st.useNgen && C.isNgenActive env && linked) = false)
    (hmsg : vsnprintf expand (cStr fmt) = some msg) (opens : Text → Bool) (now : Timestamp) :
    (C.vLogFormat expand env linked opens now st level fmt).1 =
      some (.standalone (C.openStandaloneFile env opens now st).file
        (C.standaloneLines now st.ewtsIdPadded level msg)) := by
  obtain ⟨file, hfile⟩ := C.openStandaloneFile_eq env opens now st
  have hpass : ¬ (st.enabled = false ∨ level < st.level) := by
    rw [henabled]
    rintro (hoff | hbelow)
    · cases hoff
    · omega
  rw [C.vLogFormat_eq, hmsg, Option.elim_some, C.vLogWithState, if_neg hpass, hroute,
    if_neg Bool.false_ne_true, hfile]

/-- `%s` stands for the message, when an `int` counts its characters. -/
theorem vsnprintf_string (expand : Text → Option Text) : vsnprintf expand (cStr (text "%s")) =
    (expand (text "%s")).filter (·.length ≤ intMax) := by
  have hfmt : cStr (text "%s") = text "%s" ∧ (text "%s").any (· = ch '%') = true := by decide
  rw [vsnprintf, hfmt.1, if_pos hfmt.2]

/-- An empty first line, a blank one, and a last line without newline. -/
private def unevenMessage : Text := text "\nfirst\n\n \t\n\tsecond"

private def unevenState : C.LoggerState :=
  C.initLoggerState (fun _ => none) (.alloc (text "PET") false)

private def unevenLogger : Python.EwtsLogger := ⟨text "PET", false, none, none, 20, 20⟩

private def unevenCall : Ngen.Call := ⟨text "PET", 20, unevenMessage, default⟩

end Ewts
