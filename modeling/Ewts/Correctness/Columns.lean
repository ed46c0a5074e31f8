import Ewts.Core.Lines
import Ewts.Correctness.NativeRegistry
import Ewts.Correctness.UtcClock
import Ewts.Runtime.Cpp.Logger
import Ewts.Runtime.Fortran.Writer

/-!
# Columns of native log lines

A standalone message stands behind the timestamp, the padded id and the padded level. The C
writer cuts a message at its newlines and puts the columns in front of every piece. The C++ and
the Fortran writer put them in front of the message.
-/

namespace Ewts

/-! ## Columns -/

/-- What stands in front of a message. -/
structure Columns where
  now : Stamp
  ewtsId : Text
  level : Text
  length_ewtsId : ewtsId.length = 8
  length_level : level.length = 7
  newline_level : ch '\n' ∉ level

/-- The columns as they are written. -/
def Columns.text (c : Columns) : Text := c.now.iso ++ ch ' ' :: c.ewtsId ++ ch ' ' :: c.level

/-- What a message of a standalone logger adds to a file, or to standard output. -/
structure Write where
  file : Option Text
  columns : Columns
  content : Text

/-- Every line of a write begins with its columns. -/
def Write.Prefixed (w : Write) : Prop := ∀ line ∈ physicalLines w.content, w.columns.text <+: line

/-- Behind every newline of a message its columns stand again. -/
def Repeats (columns message : Text) : Prop :=
  ∀ before rest, message = before ++ ch '\n' :: rest → columns <+: rest

/-- A newline in the columns is one in the id. -/
theorem Columns.newline_mem_iff (c : Columns) : ch '\n' ∈ c.text ↔ ch '\n' ∈ c.ewtsId := by
  have hiso : ch '\n' ∉ c.now.iso := by
    intro hmem
    rcases Stamp.mem_iso hmem with h | h | h | h | h | h
    all_goals exact absurd h (by decide)
  have hblank : ch '\n' ≠ ch ' ' := by decide
  simp only [Columns.text, List.mem_append, List.mem_cons, hiso, hblank, c.newline_level,
    false_or, or_false]

/-- No line begins with columns that hold a newline. -/
theorem Write.Prefixed.newline_not_mem {w : Write} (h : w.Prefixed) (hend : Terminated w.content) :
    ch '\n' ∉ w.columns.ewtsId := by
  rw [← Columns.newline_mem_iff]
  intro hmem
  have hne : physicalLines w.content ≠ [] := by
    obtain ⟨body, hbody⟩ := hend
    rw [hbody, physicalLines_newline]
    exact List.splitOn_ne_nil _ body
  obtain ⟨line, rest, hlines⟩ := List.exists_cons_of_ne_nil hne
  have hline : line ∈ physicalLines w.content := by
    rw [hlines]
    exact List.mem_cons_self ..
  exact Ewts.newline_not_mem hline ((h line hline).subset hmem)

/-- A message that is written as it is. -/
theorem prefixed_raw_iff {w : Write} {message : Text}
    (h : w.content = w.columns.text ++ ch ' ' :: message ++ [ch '\n']) :
    w.Prefixed ↔ ch '\n' ∉ w.columns.ewtsId ∧ Repeats w.columns.text message := by
  have hterminated : Terminated w.content := ⟨_, h⟩
  by_cases hid : ch '\n' ∈ w.columns.ewtsId
  · exact iff_of_false (fun hw => hw.newline_not_mem hterminated hid) fun hw => hw.1 hid
  · have hcolumns : ch '\n' ∉ w.columns.text := by rwa [Columns.newline_mem_iff]
    have hfront : ch '\n' ∉ w.columns.text ++ [ch ' '] := by
      rw [List.mem_append, not_or]
      exact ⟨hcolumns, by decide⟩
    rw [Write.Prefixed, h, physicalLines_newline, forall_isPrefix_splitOn_iff hcolumns,
      and_iff_right (List.prefix_append ..), and_iff_right hid]
    constructor
    · rintro hall before rest rfl
      exact hall (w.columns.text ++ ch ' ' :: before) rest (by simp)
    · intro hall before rest heq
      have heq' : w.columns.text ++ [ch ' '] ++ message = before ++ ch '\n' :: rest := by
        rw [← heq, List.append_assoc, List.singleton_append]
      obtain ⟨m, hm⟩ := newline_behind hfront heq'
      exact hall m rest hm

/-- A message that is written line by line. -/
theorem prefixed_lines_iff {w : Write} {lines : List Text} (hne : lines ≠ [])
    (h : w.content = (lines.map (· ++ [ch '\n'])).flatten)
    (hlines : ∀ line ∈ lines, w.columns.text <+: line ∧
      (ch '\n' ∉ w.columns.text → ch '\n' ∉ line)) :
    Terminated w.content ∧ (w.Prefixed ↔ ch '\n' ∉ w.columns.ewtsId) := by
  have hterminated : Terminated w.content := by
    obtain ⟨front, last, rfl⟩ : ∃ front last, lines = front ++ [last] :=
      ⟨lines.dropLast, lines.getLast hne, (List.dropLast_append_getLast hne).symm⟩
    refine ⟨(front.map (· ++ [ch '\n'])).flatten ++ last, ?_⟩
    rw [h, List.map_append, List.flatten_append, List.append_assoc]
    exact congrArg _ (List.append_nil _)
  refine ⟨hterminated, fun hw => hw.newline_not_mem hterminated, fun hid line hline => ?_⟩
  rw [h, physicalLines_flatten] at hline
  · exact (hlines line hline).1
  · intro line hline
    apply (hlines line hline).2
    rwa [Columns.newline_mem_iff]

/-! ## The C writer -/

namespace C

variable {loggers : List LoggerState}

/-- A state that has read the environment, with the column of its id. -/
structure LoggerState.Ready (st : LoggerState) : Prop where
  initialized : st.initialized = true
  padded : st.ewtsIdPadded = padEwtsId st.ewtsId

theorem length_padEwtsId (ewtsId : Text) : (padEwtsId ewtsId).length = 8 := by
  rw [padEwtsId, List.length_append, List.length_take, toupperAll, List.length_map,
    List.length_replicate]
  omega

theorem length_levelNamePadded (level : Int) : (levelNamePadded level).length = 7 := by
  unfold levelNamePadded
  split_ifs <;> rfl

theorem newline_levelNamePadded (level : Int) : ch '\n' ∉ levelNamePadded level := by
  unfold levelNamePadded
  split_ifs <;> decide

theorem forall_storeState {P : LoggerState → Prop} {st : LoggerState} (hst : P st)
    (h : ∀ s ∈ loggers, P s) : ∀ s ∈ storeState st loggers, P s := by
  induction loggers with
  | nil => exact h
  | cons t loggers ih =>
    rw [List.forall_mem_cons] at h
    rw [storeState]
    split
    · exact List.forall_mem_cons.mpr ⟨hst, h.2⟩
    · exact List.forall_mem_cons.mpr ⟨h.1, ih h.2⟩

/-- A lookup returns the state of its key. -/
theorem getLoggerState_ready (env : Environ) (h : ∀ st ∈ loggers, st.Ready) (ewtsId : Text)
    (ewtsNgen : Bool) :
    let r := getLoggerState env loggers ewtsId ewtsNgen
    r.1.Ready ∧ r.1.ewtsId = loggerKey ewtsId ∧ ∀ st ∈ r.2, st.Ready := by
  unfold getLoggerState
  split
  · rename_i st hfind
    have hst := h st (List.mem_of_find?_eq_some hfind)
    have hid : st.ewtsId = loggerKey ewtsId := by simpa using List.find?_some hfind
    have hready : ({ st with useNgen := st.useNgen || ewtsNgen } : LoggerState).Ready :=
      ⟨hst.initialized, hst.padded⟩
    have hsame : initLoggerState env { st with useNgen := st.useNgen || ewtsNgen } =
        { st with useNgen := st.useNgen || ewtsNgen } := if_pos hst.initialized
    rw [hsame]
    exact ⟨hready, hid, forall_storeState hready h⟩
  · have hready : (initLoggerState env (.alloc (loggerKey ewtsId) ewtsNgen)).Ready := ⟨rfl, rfl⟩
    exact ⟨hready, take_loggerKey ewtsId, List.forall_mem_cons.mpr ⟨hready, h⟩⟩

theorem callStep_ready (h : ∀ st ∈ loggers, st.Ready) (call : CallAt) :
    ∀ st ∈ callStep loggers call, st.Ready := by
  obtain ⟨hready, _, hall⟩ := getLoggerState_ready call.1.env h call.2.ewtsId call.2.ewtsNgen
  rcases callStep_eq loggers call with heq | ⟨file, heq⟩
  · rw [heq]
    exact hall
  · rw [heq]
    exact forall_storeState ⟨hready.initialized, hready.padded⟩ hall

/-- The output of a call; only a message has one. -/
def Call.output (host : Host) (loggers : List LoggerState) : Call → Option Output
  | ewtsLogModule id level msg => (C.ewtsLogModule host loggers (id.getD []) level msg).1
  | log level msg => (C.log host loggers level msg).1
  | _ => none

/-- The level of a message. -/
def Call.level : Call → Int
  | ewtsLogModule _ level _ => level
  | log level _ => level
  | _ => 0

/-- The columns of a message. -/
def Call.columns (host : Host) (call : Call) : Columns where
  now := host.now.stamp
  ewtsId := padEwtsId (loggerKey call.ewtsId)
  level := levelNamePadded call.level
  length_ewtsId := length_padEwtsId _
  length_level := length_levelNamePadded _
  newline_level := newline_levelNamePadded _

/-- What a call writes itself. -/
def Call.write (host : Host) (loggers : List LoggerState) (call : Call) : Option Write :=
  match call.output host loggers with
  | some (.standalone file lines) =>
    some ⟨match file with | some (.file path) => some path | _ => none, call.columns host,
      lines.flatten⟩
  | _ => none

/-- A message is written line by line, each behind the columns. -/
theorem standaloneLines_eq (c : Columns) {now : Timestamp} (hnow : c.now = now.stamp)
    {level : Int} (hlevel : c.level = levelNamePadded level) (msg : Text) :
    ∃ lines, lines ≠ [] ∧
      standaloneLines now c.ewtsId level msg = lines.map (· ++ [ch '\n']) ∧
      ∀ line ∈ lines, c.text <+: line ∧ (ch '\n' ∉ c.text → ch '\n' ∉ line) := by
  have hiso : now.iso = c.now.iso := by rw [hnow, Timestamp.iso_stamp]
  unfold standaloneLines
  rw [← hlevel, hiso]
  simp only
  split
  · exact ⟨[c.text], List.cons_ne_nil _ _, rfl,
      List.forall_mem_singleton.mpr ⟨List.prefix_refl _, id⟩⟩
  · rename_i hne
    refine ⟨(strtokLines [] msg).map fun line => c.text ++ ch ' ' :: line, ?_, ?_, ?_⟩
    · exact fun hnil => hne (List.map_eq_nil_iff.mp hnil)
    · rw [List.map_map]
      rfl
    · intro line hline
      obtain ⟨piece, hpiece, rfl⟩ := List.mem_map.mp hline
      refine ⟨List.prefix_append _ _, fun hcolumns => ?_⟩
      rw [strtokLines_eq] at hpiece
      have hnot := newline_not_mem (List.mem_of_mem_filter hpiece)
      simp only [List.mem_append, List.mem_cons, not_or]
      exact ⟨hcolumns, by decide, hnot⟩

/-- The lines of a call stand behind the column of its id. -/
theorem Call.output_standalone (h : ∀ st ∈ loggers, st.Ready) {host : Host} {call : Call}
    {file : Option Sink} {lines : List Text}
    (houtput : call.output host loggers = some (.standalone file lines)) :
    ∃ msg, lines = standaloneLines host.now (padEwtsId (loggerKey call.ewtsId)) call.level msg := by
  have hmodule : ∀ (id : Text) (level : Int) (msg : Option Text),
      (C.ewtsLogModule host loggers id level msg).1 = some (.standalone file lines) →
        ∃ msg, lines = standaloneLines host.now (padEwtsId (loggerKey id)) level msg := by
    intro id level msg hmsg
    obtain ⟨hready, hid, _⟩ := getLoggerState_ready host.env h id false
    cases msg with
    | none => cases hmsg
    | some msg =>
      refine ⟨msg, ?_⟩
      rw [← hid, ← hready.padded]
      exact vLogWithState_standalone hmsg
  cases call with
  | ewtsLogModule id level msg => exact hmodule (id.getD []) level msg houtput
  | log level msg => exact hmodule (text "EWTS") level msg houtput
  | ewtsInit => cases houtput
  | ewtsGetLogLevelModule => cases houtput
  | ewtsIsLoggingEnabledModule => cases houtput

/-- The C writer puts the columns in front of every line. -/
theorem Call.write_spec (h : ∀ st ∈ loggers, st.Ready) {host : Host} {call : Call} {w : Write}
    (hw : w ∈ call.write host loggers) :
    Terminated w.content ∧ (w.Prefixed ↔ ch '\n' ∉ w.columns.ewtsId) := by
  rw [Option.mem_def, Call.write] at hw
  split at hw
  · rename_i file lines houtput
    obtain ⟨msg, rfl⟩ := call.output_standalone h houtput
    obtain ⟨own, hne, hown, hlines⟩ := standaloneLines_eq (call.columns host) rfl rfl msg
    cases hw
    exact prefixed_lines_iff hne (congrArg List.flatten hown) hlines
  · cases hw

end C

/-! ## The C++ writer -/

namespace Cpp

/-- A logger that has read the environment has the column of its id. -/
def Logger.Ready (lg : Logger) : Prop := lg.initialized = true → lg.ewtsIdPadded = padId lg.ewtsId

theorem length_padId (ewtsId : Text) : (padId ewtsId).length = 8 := by
  unfold padId
  split
  · rw [List.length_take]
    omega
  · rw [List.length_append, List.length_replicate]
    omega

/-- The columns of a message. -/
def Logger.columns (host : Host) (lg : Logger) (level : Int) : Columns where
  now := host.now.stamp
  ewtsId := padId lg.ewtsId
  level := C.levelNamePadded level
  length_ewtsId := length_padId _
  length_level := C.length_levelNamePadded _
  newline_level := C.newline_levelNamePadded _

/-- What a message of a logger writes itself. -/
def Logger.write (host : Host) (lg : Logger) (level : Int) (message : Text) : Option Write :=
  match (lg.log host level message).1 with
  | some (.standalone out line) => some ⟨out, lg.columns host level, line⟩
  | _ => none

variable {lg : Logger}

theorem Logger.Ready.initOnce (h : lg.Ready) (env : Environ) :
    (lg.initOnce env).initialized = true ∧
      (lg.initOnce env).ewtsId = lg.ewtsId ∧ (lg.initOnce env).ewtsIdPadded = padId lg.ewtsId := by
  unfold Logger.initOnce
  split
  · rename_i hinit
    exact ⟨hinit, rfl, h hinit⟩
  · exact ⟨rfl, rfl, rfl⟩

theorem Logger.openStandaloneFile_eq {host : Host} {opened : Logger}
    (h : lg.openStandaloneFile host = some opened) : ∃ out, opened = { lg with out := out } := by
  unfold Logger.openStandaloneFile at h
  split at h
  · exact ⟨lg.out, (Option.some.inj h).symm⟩
  · simp only at h
    split at h
    · exact ⟨lg.out, (Option.some.inj h).symm⟩
    · split at h
      · cases h
      · exact ⟨_, (Option.some.inj h).symm⟩

/-- A message keeps the logger as it was initialised, up to its file. -/
theorem Logger.log_eq (host : Host) (lg : Logger) (level : Int) (message : Text) :
    ∃ out, (lg.log host level message).2 = { lg.initOnce host.env with out := out } := by
  unfold Logger.log
  simp only
  split
  · exact ⟨_, rfl⟩
  · split
    · exact ⟨_, rfl⟩
    · split
      · exact ⟨_, rfl⟩
      · rename_i opened hopen
        exact Logger.openStandaloneFile_eq hopen

theorem Logger.Ready.log (h : lg.Ready) (host : Host) (level : Int) (message : Text) :
    (lg.log host level message).2.Ready := by
  obtain ⟨out, hlog⟩ := lg.log_eq host level message
  obtain ⟨_, hid, hpadded⟩ := h.initOnce host.env
  rw [hlog]
  intro _
  change (lg.initOnce host.env).ewtsIdPadded = padId (lg.initOnce host.env).ewtsId
  rw [hid, hpadded]

/-- The C++ writer writes the message as it is. -/
theorem Logger.write_spec (h : lg.Ready) {host : Host} {level : Int} {message : Text} {w : Write}
    (hw : w ∈ lg.write host level message) :
    w.content = w.columns.text ++ ch ' ' :: message ++ [ch '\n'] := by
  rw [Option.mem_def, Logger.write] at hw
  split at hw
  · rename_i out line hlog
    cases hw
    obtain ⟨_, _, hpadded⟩ := h.initOnce host.env
    unfold Logger.log at hlog
    simp only at hlog
    split at hlog
    · cases hlog
    · split at hlog
      · cases hlog
      · split at hlog
        · cases hlog
        · rename_i opened hopen
          obtain ⟨out, rfl⟩ := Logger.openStandaloneFile_eq hopen
          cases hlog
          rw [hpadded]
          simp [Columns.text, Logger.columns]
  · cases hw

end Cpp

/-! ## The Fortran writer -/

namespace Fortran

/-! ### Timestamps -/

theorem DateAndTime.utc_valid (clock : DateAndTime) :
    (adjustUtc clock.reading clock.zoneMin).Valid :=
  adjustUtc_valid clock.zoneMin ⟨clock.date, clock.hour, clock.minute⟩

/-- The calendar of timestamps is the calendar of dates. -/
theorem daysInMonth_toNat {y mo : ℤ} (hy : 0 ≤ y) (hmo : 0 ≤ mo) :
    (Ewts.daysInMonth y.toNat mo.toNat : ℤ) = Gregorian.monthLength y mo := by
  unfold Ewts.daysInMonth Gregorian.monthLength Gregorian.Leap
  split_ifs <;> omega

/-- The UTC reading of a clock. -/
def DateAndTime.utc (clock : DateAndTime) : Stamp where
  year := (adjustUtc clock.reading clock.zoneMin).day.y.toNat
  month := (adjustUtc clock.reading clock.zoneMin).day.mo.toNat
  day := (adjustUtc clock.reading clock.zoneMin).day.d.toNat
  hour := (adjustUtc clock.reading clock.zoneMin).h.toNat
  minute := (adjustUtc clock.reading clock.zoneMin).mi.toNat
  second := clock.sec.toNat
  ms := clock.ms.toNat
  year_le := by
    have hyear := clock.year
    omega
  month_bounds := by
    have hday := clock.utc_valid.day
    exact ⟨by have := hday.month_pos; omega, by have := hday.month_le; omega⟩
  day_bounds := by
    obtain ⟨hmonth, _, hpos, hle⟩ := clock.utc_valid.day
    have hyear : 0 ≤ (adjustUtc clock.reading clock.zoneMin).day.y := by
      have := clock.year
      omega
    have hlength := daysInMonth_toNat hyear (zero_le_one.trans hmonth)
    omega
  hour_lt := by
    have hhour := clock.utc_valid.hour
    omega
  minute_lt := by
    have hminute := clock.utc_valid.minute
    omega
  second_le := by
    have hsecond := clock.second
    omega
  ms_lt := by
    have hms := clock.millisecond
    omega

theorem editInteger_of_lt {w : Nat} {n : ℤ} (hpos : 0 ≤ n) (hlt : n.toNat < 10 ^ w) :
    editInteger w n = fixedDigits w n.toNat :=
  if_pos ⟨hpos, hlt⟩

/-- The written timestamp is the one of the UTC reading. -/
theorem trim_utcTimestampIsoMs (clock : DateAndTime) :
    trim (utcTimestampIsoMs clock) = clock.utc.iso := by
  obtain ⟨⟨hmonth, hmonth', hday, hday'⟩, hhour, hminute⟩ := clock.utc_valid
  have hyear := clock.year
  have hsecond := clock.second
  have hms := clock.millisecond
  have hlong : Gregorian.monthLength (adjustUtc clock.reading clock.zoneMin).day.y
      (adjustUtc clock.reading clock.zoneMin).day.mo ≤ 31 := by
    unfold Gregorian.monthLength
    split_ifs <;> decide
  have hiso : utcTimestampIsoMs clock = assign 32 clock.utc.iso := by
    unfold utcTimestampIsoMs
    simp only
    rw [editInteger_of_lt (w := 4), editInteger_of_lt (w := 2), editInteger_of_lt (w := 2),
      editInteger_of_lt (w := 2), editInteger_of_lt (w := 2), editInteger_of_lt (w := 2),
      editInteger_of_lt (w := 3)]
    · rfl
    all_goals omega
  have hlength : clock.utc.iso.take 32 = clock.utc.iso :=
    List.take_of_length_le (by simp [Stamp.iso])
  rw [hiso, trim_assign, hlength]
  intro c hc
  rw [hlength, Stamp.iso, List.getLast?_concat] at hc
  cases hc
  decide

/-! ### Loggers -/

/-- A logger with the column of its id. -/
def LoggerState.Ready (logger : LoggerState) : Prop :=
  logger.ewtsIdPadded = buildEwtsIdPadded logger.ewtsId

/-- The columns of a message. -/
def columns (host : Host) (id : Text) (lvl : Int) : Columns where
  now := host.clock.utc
  ewtsId := buildEwtsIdPadded (loggerKey id)
  level := levelNamePadded lvl
  length_ewtsId := length_buildEwtsIdPadded _
  length_level := C.length_levelNamePadded lvl
  newline_level := C.newline_levelNamePadded lvl

/-- The logger that is found or appended has the column of the key. -/
theorem findOrAppend_spec {loggers : List LoggerState} (h : ∀ lg ∈ loggers, lg.Ready) {key : Text}
    (hkey : idKey key = key) {logger : LoggerState}
    (hlogger : (findOrAppend loggers key).2[(findOrAppend loggers key).1]? = some logger) :
    logger.ewtsIdPadded = buildEwtsIdPadded key ∧
      ∀ lg ∈ (findOrAppend loggers key).2, lg.Ready := by
  cases hidx : loggers.findIdx? fun logger => trim logger.ewtsId = trim key with
  | some idx =>
    have hfound : findOrAppend loggers key = (idx, loggers) := by rw [findOrAppend, hidx]
    rw [hfound] at hlogger ⊢
    obtain ⟨hlt, hsame, _⟩ := List.findIdx?_eq_some_iff_getElem.mp hidx
    have heq : loggers[idx] = logger := by
      rw [← Option.some.injEq, ← hlogger]
      exact (List.getElem?_eq_getElem hlt).symm
    have htrim : trim logger.ewtsId = trim key := by
      rw [← heq]
      simpa using hsame
    have hready : logger.Ready := heq ▸ h _ (List.getElem_mem hlt)
    exact ⟨hready.trans (buildEwtsIdPadded_congr htrim), h⟩
  | none =>
    have hfound : findOrAppend loggers key =
        (loggers.length, loggers ++ [appendLogger (trim key)]) := by rw [findOrAppend, hidx]
    rw [hfound] at hlogger ⊢
    rw [List.getElem?_concat_length] at hlogger
    have hid : (appendLogger (trim key)).ewtsIdPadded = buildEwtsIdPadded key := by
      rw [appendLogger, idKey_trim, hkey]
    have hready : (appendLogger (trim key)).Ready := by
      rw [LoggerState.Ready, appendLogger]
    refine ⟨(congrArg LoggerState.ewtsIdPadded (Option.some.inj hlogger)).symm.trans hid, ?_⟩
    rw [List.forall_mem_append]
    exact ⟨h, List.forall_mem_singleton.mpr hready⟩

variable {read : ListRead} {bridge : Bool}

/-- An initialisation keeps the id and its column. -/
theorem initLoggerState_ewtsId {env : Environ} {vars : Variables} {logger : LoggerState}
    {o : Outcome} (h : initLoggerState read env bridge vars logger = some o) :
    o.logger.ewtsId = logger.ewtsId ∧ o.logger.ewtsIdPadded = logger.ewtsIdPadded := by
  unfold initLoggerState at h
  split at h
  · cases h
    exact ⟨rfl, rfl⟩
  · obtain ⟨vars, _, rfl⟩ := Option.map_eq_some_iff.mp h
    exact ⟨rfl, rfl⟩

theorem forall_set {P : LoggerState → Prop} {loggers : List LoggerState} {logger : LoggerState}
    (h : ∀ lg ∈ loggers, P lg) (hlogger : P logger) (idx : Nat) :
    ∀ lg ∈ loggers.set idx logger, P lg := by
  intro lg hlg
  rcases List.mem_or_eq_of_mem_set hlg with hmem | rfl
  · exact h lg hmem
  · exact hlogger

/-- A lookup returns a logger with the column of the id. -/
theorem getLoggerIndex_spec {env : Environ} {reg : Registry} (h : ∀ lg ∈ reg.loggers, lg.Ready)
    {id : Text} {found : Found} (hfound : getLoggerIndex read bridge env reg id = some found) :
    found.logger.ewtsIdPadded = buildEwtsIdPadded (loggerKey id) ∧ found.logger.Ready ∧
      ∀ lg ∈ found.registry.loggers, lg.Ready := by
  rw [getLoggerIndex] at hfound
  obtain ⟨logger, hlogger, hmap⟩ := Option.bind_eq_some_iff.mp hfound
  obtain ⟨o, ho, rfl⟩ := Option.map_eq_some_iff.mp hmap
  obtain ⟨hcolumn, hall⟩ := findOrAppend_spec h (idKey_loggerKey id) hlogger
  obtain ⟨hid, hpadded⟩ := initLoggerState_ewtsId ho
  have hready : o.logger.Ready := by
    have hlogger' := hall logger (List.mem_of_getElem? hlogger)
    rw [LoggerState.Ready, hid, hpadded]
    exact hlogger'
  exact ⟨hpadded.trans hcolumn, hready, forall_set hall hready _⟩

/-- Opening the file changes its unit and its path. -/
theorem openStandaloneFile_eq (host : Host) (logger : LoggerState) : ∃ unitLog path,
    openStandaloneFile host logger = { logger with unitLog := unitLog, path := path } := by
  unfold openStandaloneFile
  split_ifs
  · exact ⟨logger.unitLog, logger.path, rfl⟩
  · exact ⟨-1, logger.path, rfl⟩
  · exact ⟨_, _, rfl⟩

theorem writeLog_eq (bridge : Bool) (host : Host) (logger : LoggerState) (msg : Text) (lvl : Int) :
    ∃ unitLog path, (writeLog bridge host logger msg lvl).2 =
      { logger with unitLog := unitLog, path := path } := by
  unfold writeLog
  split_ifs
  · exact ⟨logger.unitLog, logger.path, rfl⟩
  · exact ⟨logger.unitLog, logger.path, rfl⟩
  · exact openStandaloneFile_eq host logger

/-- What a message writes itself. -/
def write (read : ListRead) (bridge : Bool) (host : Host) (reg : Registry) (id msg : Text)
    (lvl : Int) : Option Write :=
  match writeLogModule read bridge host reg id msg lvl with
  | some (some (.standalone file record), _) => some ⟨file, columns host id lvl, record⟩
  | _ => none

/-- A message keeps the columns of the loggers. -/
theorem writeLogModule_ready {host : Host} {reg : Registry} (h : ∀ lg ∈ reg.loggers, lg.Ready)
    {id msg : Text} {lvl : Int} {output : Option Output} {found : Found}
    (hwrite : writeLogModule read bridge host reg id msg lvl = some (output, found)) :
    ∀ lg ∈ found.registry.loggers, lg.Ready := by
  obtain ⟨found', hfound, heq⟩ := Option.map_eq_some_iff.mp hwrite
  obtain ⟨_, hready, hall⟩ := getLoggerIndex_spec h hfound
  obtain ⟨unitLog, path, hlog⟩ := writeLog_eq bridge host found'.logger msg lvl
  rw [← congrArg (·.2.registry.loggers) heq]
  simp only [hlog]
  have hready' : LoggerState.Ready { found'.logger with unitLog := unitLog, path := path } := hready
  exact forall_set hall hready' _

/-- The Fortran writer writes the message as it is, but for blanks at its end. -/
theorem write_spec {host : Host} {reg : Registry} (h : ∀ lg ∈ reg.loggers, lg.Ready)
    {id msg : Text} {lvl : Int} {w : Write} (hw : w ∈ write read bridge host reg id msg lvl) :
    w.content = w.columns.text ++ ch ' ' :: trim msg ++ [ch '\n'] := by
  rw [Option.mem_def, write] at hw
  split at hw
  · rename_i file record found hwrite
    cases hw
    obtain ⟨found', hfound, heq⟩ := Option.map_eq_some_iff.mp hwrite
    obtain ⟨hcolumn, _, _⟩ := getLoggerIndex_spec h hfound
    obtain ⟨unitLog, path, hopen⟩ := openStandaloneFile_eq host found'.logger
    have houtput := congrArg Prod.fst heq
    simp only [writeLog, hopen, hcolumn, trim_utcTimestampIsoMs] at houtput
    split_ifs at houtput
    all_goals cases houtput
    all_goals simp [Columns.text, columns]
  · cases hw

end Fortran

end Ewts
