import Ewts.Core.Timestamp
import Ewts.Runtime.Python.Str

/-!
# Line prefixes

`formatter.py` and the level table of `log_levels.py`: every line starts with the
timestamp, the EWTS id at eight columns and the level name at seven.
-/

namespace Ewts.Python

/-- `LEVELS`. -/
def levels : List (Text × Int) :=
  [(text "NOTSET", 0), (text "DEBUG", 10), (text "PERFORM", 15), (text "INFO", 20),
    (text "WARNING", 30), (text "SEVERE", 40), (text "FATAL", 50), (text "STATUS", 60)]

/-- `log_level_name(level)`. -/
def logLevelName (level : Int) : Text :=
  match levels.find? (·.2 = level) with
  | some l => l.1
  | none => text "INFO"

/-- `EWTS_ID_WIDTH`. -/
def ewtsIdWidth : Nat := 8

/-- `LEVEL_WIDTH`. -/
def levelWidth : Nat := 7

/-- `n` spaces. -/
def spaces (n : Nat) : Text := List.replicate n (ch ' ')

/-- `pad_ewts_id(ewts_id)`. -/
def padEwtsId (u : Unicode) (ewtsId : Text) : Text :=
  let s := u.upper ewtsId
  if ewtsIdWidth ≤ s.length then s.take ewtsIdWidth else s ++ spaces (ewtsIdWidth - s.length)

/-- `fixed_level_name(level)`. -/
def fixedLevelName (level : Int) : Text :=
  let name := logLevelName level
  let out := if name = text "ERROR" then text "SEVERE" else name
  let out := if out.length < levelWidth then out ++ spaces (levelWidth - out.length) else out
  if levelWidth < out.length then out.take levelWidth else out

/-- `format_prefix(ewts_id, level)`, at the clock reading `now`. -/
def formatPrefix (u : Unicode) (now : Timestamp) (ewtsId : Text) (level : Int) : Text :=
  now.iso ++ ch ' ' :: padEwtsId u ewtsId ++ ch ' ' :: fixedLevelName level

/-- `split_lines(message)`: an empty message is one empty line. -/
def splitLines (message : Text) : List Text :=
  if splitlines message = [] then [[]] else splitlines message

/-- Every message has a line. -/
theorem splitLines_ne_nil (message : Text) : splitLines message ≠ [] := by
  unfold splitLines
  split
  · simp
  · assumption

/-- The id column is the first eight characters and blanks up to the width. -/
theorem padEwtsId_eq (u : Unicode) (ewtsId : Text) :
    padEwtsId u ewtsId = (u.upper ewtsId).take ewtsIdWidth ++
      spaces (ewtsIdWidth - (u.upper ewtsId).length) := by
  unfold padEwtsId
  simp only
  split
  · rename_i h
    rw [Nat.sub_eq_zero_of_le h, spaces, List.replicate_zero, List.append_nil]
  · rename_i h
    rw [List.take_of_length_le (by omega)]

/-- The prefix of a status line. -/
theorem formatPrefix_status (u : Unicode) (now : Timestamp) (ewtsId : Text) :
    formatPrefix u now ewtsId 60 =
      now.iso ++ ch ' ' :: padEwtsId u ewtsId ++ ch ' ' :: text "STATUS " := rfl

/-- Padding is white space. -/
theorem isSpace_of_mem_spaces {n : Nat} : ∀ c ∈ spaces n, isSpace c = true := by
  intro c hc
  rw [(List.mem_replicate.mp hc).2]
  rfl

end Ewts.Python
