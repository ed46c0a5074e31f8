import Ewts.Core.CString
import Ewts.Core.Gregorian
import Ewts.Core.Timestamp
import Ewts.Runtime.Fortran.Clock
import Ewts.Runtime.Fortran.Logger

/-!
# The writer of the Fortran runtime

The loggers of a process stand in an array, in the order of their first use. A message that
reaches the level of its logger is handed to the bridge or written as one record, to the unit
of a file or to standard output.
-/

namespace Ewts.Fortran

/-! ## Timestamps -/

/-- What `date_and_time` reports: a date and a time of the day, perhaps in a leap second, and the
offset from UTC. The UTC year has at most four digits. -/
structure DateAndTime where
  reading : Reading
  zoneMin : ℤ
  sec : ℤ
  ms : ℤ
  date : Gregorian.Valid reading.day.y reading.day.mo reading.day.d
  hour : 0 ≤ reading.h ∧ reading.h ≤ 23
  minute : 0 ≤ reading.mi ∧ reading.mi ≤ 59
  second : 0 ≤ sec ∧ sec ≤ 60
  millisecond : 0 ≤ ms ∧ ms ≤ 999
  year : 0 ≤ (adjustUtc reading zoneMin).day.y ∧ (adjustUtc reading zoneMin).day.y ≤ 9999

/-- The edit descriptor `Iw.w`: leading zeros, or asterisks for a number that does not fit. -/
def editInteger (w : Nat) (n : ℤ) : Text :=
  if 0 ≤ n ∧ n.toNat < 10 ^ w then fixedDigits w n.toNat else List.replicate w (ch '*')

/-- `utc_timestamp_iso_ms(ts)`, into a variable of 32 characters. -/
def utcTimestampIsoMs (clock : DateAndTime) : Text :=
  let utc := adjustUtc clock.reading clock.zoneMin
  assign 32 <|
    editInteger 4 utc.day.y ++ ch '-' :: editInteger 2 utc.day.mo ++ ch '-' ::
      editInteger 2 utc.day.d ++ ch 'T' :: editInteger 2 utc.h ++ ch ':' ::
      editInteger 2 utc.mi ++ ch ':' :: editInteger 2 clock.sec ++ ch '.' ::
      editInteger 3 clock.ms ++ [ch 'Z']

/-- `utc_timestamp_compact(ts)`, into a variable of 15 characters. -/
def utcTimestampCompact (clock : DateAndTime) : Text :=
  let utc := adjustUtc clock.reading clock.zoneMin
  assign 15 <|
    editInteger 4 utc.day.y ++ editInteger 2 utc.day.mo ++ editInteger 2 utc.day.d ++ ch 'T' ::
      editInteger 2 utc.h ++ editInteger 2 utc.mi ++ editInteger 2 clock.sec

/-! ## Columns -/

/-- An id without surrounding blanks, up-cased, in a variable of 64 characters. -/
def idKey (id : Text) : Text := upperInplace (assign 64 (adjustl (trim id)))

/-- `build_ewts_id_padded(id_in, id8)`. -/
def buildEwtsIdPadded (idIn : Text) : Text :=
  let s := idKey idIn
  let n := (trim s).length
  if 8 ≤ n then s.take 8
  else if 0 < n then s.take n ++ blanks (8 - n)
  else text "EWTS    "

/-- `level_name_padded(lvl)`. -/
def levelNamePadded (lvl : Int) : Text :=
  if lvl = 10 then text "DEBUG  "
  else if lvl = 15 then text "PERFORM"
  else if lvl = 20 then text "INFO   "
  else if lvl = 30 then text "WARNING"
  else if lvl = 40 then text "SEVERE "
  else if lvl = 50 then text "FATAL  "
  else if lvl = 60 then text "STATUS "
  else text "NOTSET "

/-! ## Loggers -/

/-- The variables of the module and `g_loggers`. -/
structure Registry where
  vars : Variables
  loggers : List LoggerState

/-- What a call meets outside the library. -/
structure Host where
  env : Environ
  clock : DateAndTime
  /-- The unit that `newunit` gives to a file that is opened for appending; the standard makes
  it negative. -/
  opens : Text → Option Int

/-- The element that `append_logger(id, idx)` adds. -/
def appendLogger (id : Text) : LoggerState where
  ewtsId := idKey id
  ewtsIdPadded := buildEwtsIdPadded (idKey id)
  initialized := false
  enabled := true
  levelMin := 20
  unitLog := -1
  path := blanks 1024

/-- The key that `get_logger_index` looks for; without an id it is `EWTS`. -/
def loggerKey (id : Text) : Text :=
  let key := assign 64 (adjustl (trim id))
  upperInplace (if trim key = [] then assign 64 (text "EWTS") else key)

/-- The logger of a key, appended unless it is there: its index, and the array. -/
def findOrAppend (loggers : List LoggerState) (key : Text) : Nat × List LoggerState :=
  match loggers.findIdx? fun logger => trim logger.ewtsId = trim key with
  | some idx => (idx, loggers)
  | none => (loggers.length, loggers ++ [appendLogger (trim key)])

/-- What `get_logger_index` leaves: the index, the logger and the registry, and the lines that
an initialisation printed. -/
structure Found where
  idx : Nat
  logger : LoggerState
  registry : Registry
  lines : List Text

variable (read : ListRead) (bridge : Bool)

/-- `get_logger_index(id, idx)`; `none` when the program stops. -/
def getLoggerIndex (env : Environ) (reg : Registry) (id : Text) : Option Found :=
  let (idx, loggers) := findOrAppend reg.loggers (loggerKey id)
  (loggers[idx]?).bind fun logger =>
    (initLoggerState read env bridge reg.vars logger).map fun o =>
      ⟨idx, o.logger, ⟨o.vars, loggers.set idx o.logger⟩, o.lines⟩

/-! ## Messages -/

/-- `is_ngen_active()`. -/
def isNgenActive (env : Environ) : Bool := getenv env (text "NGEN_RESULTS_DIR") ≠ []

/-- `open_standalone_file(idx)`. A logger whose unit is not positive opens its file again. -/
def openStandaloneFile (host : Host) (logger : LoggerState) : LoggerState :=
  if 0 < logger.unitLog then logger
  else if getenv host.env (text "EWTS_LOG_DIR") = [] then { logger with unitLog := -1 }
  else
    let dir := assign 1024 (getenv host.env (text "EWTS_LOG_DIR"))
    let dir := assign 1024 (adjustl (trim dir))
    let path := assign 1024 (trim dir ++ ch '/' :: trim logger.ewtsId ++ ch '_' ::
      utcTimestampCompact host.clock ++ text ".log")
    { logger with path := path, unitLog := (host.opens (trim path)).getD (-1) }

/-- What a message leads to. -/
inductive Output where
  /-- A call of `ewts_ngen_log`. -/
  | bridge (ewtsId : Text) (level : Int) (message : Text)
  /-- A record for the file, or for standard output. -/
  | standalone (file : Option Text) (record : Text)

/-- `write_log_module(id, msg, lvl)` with a logger. -/
def writeLog (host : Host) (logger : LoggerState) (msg : Text) (lvl : Int) :
    Option Output × LoggerState :=
  if logger.enabled = false ∨ lvl < logger.levelMin then (none, logger)
  else if bridge && isNgenActive host.env then
    (some (.bridge (cStr (trim logger.ewtsId)) lvl (cStr (trim msg))), logger)
  else
    let logger := openStandaloneFile host logger
    let record := trim (utcTimestampIsoMs host.clock) ++ ch ' ' :: logger.ewtsIdPadded ++
      ch ' ' :: levelNamePadded lvl ++ ch ' ' :: trim msg ++ [ch '\n']
    (some (.standalone (if 0 < logger.unitLog then some (trim logger.path) else none) record),
      logger)

/-- `write_log_module(id, msg, lvl)`: the output, and what the call leaves; `none` when the
program stops. -/
def writeLogModule (host : Host) (reg : Registry) (id msg : Text) (lvl : Int) :
    Option (Option Output × Found) :=
  (getLoggerIndex read bridge host.env reg id).map fun found =>
    let written := writeLog bridge host found.logger msg lvl
    let loggers := found.registry.loggers.set found.idx written.2
    (written.1,
      { found with logger := written.2, registry := { found.registry with loggers := loggers } })

/-! ## Keys -/

/-- A trimmed text has no blanks to trim. -/
@[simp] theorem trim_trim (s : Text) : trim (trim s) = trim s :=
  List.rdropWhile_idempotent _ s

/-- Blanks at the end of an id make no difference. -/
@[simp] theorem idKey_trim (s : Text) : idKey (trim s) = idKey s := by
  rw [idKey, idKey, trim_trim]

/-- The trailing blanks are filled in again. -/
theorem assign_trim {n : Nat} {s : Text} (h : s.length = n) : assign n (trim s) = s := by
  have hparts : trim s ++ s.rtakeWhile (· = ch ' ') = s :=
    List.rdropWhile_append_rtakeWhile ..
  have hblank : s.rtakeWhile (· = ch ' ') = blanks (s.rtakeWhile (· = ch ' ')).length := by
    apply List.eq_replicate_of_mem
    intro c hc
    simpa using List.mem_rtakeWhile_imp hc
  have hlength : (trim s).length + (s.rtakeWhile (· = ch ' ')).length = n := by
    rw [← List.length_append, hparts, h]
  rw [assign, List.take_of_length_le (by omega), ← hlength, Nat.add_sub_cancel_left, ← hblank,
    hparts]

/-- A variable keeps its length. -/
@[simp] theorem length_assign (n : Nat) (s : Text) : (assign n s).length = n := by
  rw [assign, blanks, List.length_append, List.length_take, List.length_replicate]
  omega

/-- Nothing moves when another character stands in front. -/
theorem adjustl_of_head? {s : Text} (h : ∀ c ∈ s.head?, c ≠ ch ' ') : adjustl s = s := by
  cases s with
  | nil => rfl
  | cons c s =>
    have hc : c ≠ ch ' ' := h c rfl
    rw [adjustl, List.dropWhile_cons_of_neg (by simpa using hc),
      List.takeWhile_cons_of_neg (by simpa using hc)]
    exact List.append_nil _

/-- Up-casing makes no blanks. -/
theorem toUpper_ne_blank {c : CodePoint} (h : c ≠ ch ' ') : c.toUpper ≠ ch ' ' := by
  intro heq
  have hval := congrArg Fin.val heq
  have hne : c.val ≠ (ch ' ').val := fun hval => h (Fin.ext hval)
  have hspace : (ch ' ').val = 0x20 := rfl
  rw [CodePoint.toUpper_val] at hval
  split_ifs at hval <;> omega

/-- A key is blank, or begins with its id. -/
theorem idKey_cases (s : Text) :
    trim (idKey s) = [] ∨ ∃ c, (idKey s).head? = some c ∧ c ≠ ch ' ' := by
  unfold idKey adjustl
  cases hdrop : (trim s).dropWhile (· = ch ' ') with
  | nil =>
    left
    rw [trim, List.rdropWhile_eq_nil_iff]
    intro d hd
    obtain ⟨e, he, rfl⟩ := List.mem_map.mp hd
    have hblank : e = ch ' ' := by
      rcases List.mem_append.mp he with he | he
      · exact List.eq_of_mem_replicate (List.mem_of_mem_take he)
      · exact List.eq_of_mem_replicate he
    rw [hblank]
    rfl
  | cons c t =>
    right
    refine ⟨c.toUpper, rfl, toUpper_ne_blank ?_⟩
    have hfirst := List.head?_dropWhile_not (· = ch ' ') (trim s)
    rw [hdrop] at hfirst
    simpa using hfirst

/-- A key does not begin with a blank. -/
theorem head?_trim_idKey (s : Text) : ∀ c ∈ (trim (idKey s)).head?, c ≠ ch ' ' := by
  intro c hc
  obtain ⟨back, hback⟩ : trim (idKey s) <+: idKey s := List.rdropWhile_prefix ..
  cases htrim : trim (idKey s) with
  | nil =>
    rw [htrim] at hc
    cases hc
  | cons d t =>
    obtain hblank | ⟨e, hfirst, he⟩ := idKey_cases s
    · rw [hblank] at htrim
      cases htrim
    · rw [htrim] at hc hback
      rw [← hback] at hfirst
      cases hc
      cases hfirst
      exact he

@[simp] theorem length_idKey (s : Text) : (idKey s).length = 64 := by
  rw [idKey, upperInplace, List.length_map, length_assign]

/-- A key is its own key. -/
@[simp] theorem idKey_idKey (s : Text) : idKey (idKey s) = idKey s := by
  have hassign : assign 64 (adjustl (trim (idKey s))) = idKey s := by
    rw [adjustl_of_head? (head?_trim_idKey s), assign_trim (length_idKey s)]
  rw [idKey, hassign, idKey, upperInplace, upperInplace, List.map_map]
  exact List.map_congr_left fun c _ => CodePoint.toUpper_toUpper c

/-- The key of a logger is in normal form. -/
theorem idKey_loggerKey (id : Text) : idKey (loggerKey id) = loggerKey id := by
  obtain ⟨s, hs⟩ : ∃ s, loggerKey id = idKey s := by
    unfold loggerKey
    simp only
    split
    · exact ⟨text "EWTS", rfl⟩
    · exact ⟨id, rfl⟩
  rw [hs, idKey_idKey]

/-- The column depends on the id without its trailing blanks. -/
theorem buildEwtsIdPadded_congr {s t : Text} (h : trim s = trim t) :
    buildEwtsIdPadded s = buildEwtsIdPadded t := by
  rw [buildEwtsIdPadded, buildEwtsIdPadded, ← idKey_trim s, h, idKey_trim]

/-- The column of an id has eight characters. -/
theorem length_buildEwtsIdPadded (s : Text) : (buildEwtsIdPadded s).length = 8 := by
  unfold buildEwtsIdPadded
  simp only
  split
  · rw [List.length_take, length_idKey]
    rfl
  · split
    · rw [List.length_append, List.length_take, length_idKey, blanks, List.length_replicate]
      omega
    · rfl

end Ewts.Fortran
