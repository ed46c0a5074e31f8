import Ewts.Core.Environ
import Ewts.Core.Trim

/-!
# The Fortran runtime

`init_logger_state` reads the environment the first time a logger is used, and prints what it
finds. Character variables have a fixed length, a character is a byte. A read without `iostat`
stops the program when it fails.
-/

namespace Ewts.Fortran

/-! ## Character variables -/

/-- `repeat(" ", n)`. -/
def blanks (n : Nat) : Text := List.replicate n (ch ' ')

/-- Assignment to a variable of a length: cut, or filled with blanks. -/
def assign (len : Nat) (s : Text) : Text := s.take len ++ blanks (len - s.length)

/-- `trim(s)`. -/
def trim (s : Text) : Text := s.rdropWhile (· = ch ' ')

/-- `adjustl(s)`: leading blanks go to the end. -/
def adjustl (s : Text) : Text :=
  s.dropWhile (· = ch ' ') ++ blanks (s.takeWhile (· = ch ' ')).length

/-- `upper_inplace(s)`. -/
def upperInplace (s : Text) : Text := s.map CodePoint.toUpper

/-- A list-directed read of one integer from a character variable. It is `none` when the read
fails; a null value leaves the variable as it was, for which the number stands as well. -/
structure ListRead where
  integer : Text → Option Int
  /-- There is no value in blanks. -/
  integer_blanks : ∀ n, integer (blanks n) = none
  /-- No integer begins with a letter. -/
  integer_letter : ∀ n c s,
    (0x41 ≤ c.val ∧ c.val ≤ 0x5A) ∨ (0x61 ≤ c.val ∧ c.val ≤ 0x7A) →
      integer (blanks n ++ c :: s) = none
  /-- Digits between blanks are a value, if the kind of the variable holds it. -/
  integer_decimal : ∀ n m k : Nat, n < 2147483648 →
    integer (blanks m ++ (decimal n ++ blanks k)) = some n

/-! ## Settings -/

/-- `parse_enabled(v)`. -/
def parseEnabled (v : Text) : Bool :=
  let s := upperInplace (assign 32 (adjustl (trim v)))
  if trim s = [] then true
  else !([text "0", text "FALSE", text "NO", text "OFF", text "DISABLED"].contains (trim s))

/-- The names that `parse_level` knows; any other one is `EWTS_NOTSET`. -/
def levelNames : List (Text × Int) :=
  [(text "DEBUG", 10), (text "PERFORM", 15), (text "INFO", 20), (text "WARN", 30),
    (text "WARNING", 30), (text "ERROR", 40), (text "SEVERE", 40), (text "FATAL", 50),
    (text "CRITICAL", 50), (text "STATUS", 60), (text "NOTSET", 0), (text "NONE", 0)]

/-- `parse_level(v)`. -/
def parseLevel (read : ListRead) (v : Text) : Int :=
  let s := assign 32 (adjustl (trim v))
  let named := (levelNames.lookup (trim (upperInplace s))).getD 0
  if trim s = [] then 0
  else match read.integer s with
    | some num => if 0 ≤ num then num else named
    | none => named

/-- `ewts_log_level_name(level)`. -/
def ewtsLogLevelName (level : Int) : Text :=
  assign 16 <|
    if level = 0 then text "NOTSET"
    else if level = 10 then text "DEBUG"
    else if level = 15 then text "PERFORM"
    else if level = 20 then text "INFO"
    else if level = 30 then text "WARNING"
    else if level = 40 then text "SEVERE"
    else if level = 50 then text "FATAL"
    else if level = 60 then text "STATUS"
    else text "INFO"

/-- `env_key_for(id)`. -/
def envKeyFor (id : Text) : Text :=
  assign 64 (trim (upperInplace (assign 64 (adjustl (trim id)))) ++ text "_LOGLEVEL")

/-! ## Initialisation -/

/-- The variables of the module. -/
structure Variables where
  linePrefix : Text
  val : Text
  gMpiRank : Int
  status : Int

/-- `logger_state`. -/
structure LoggerState where
  ewtsId : Text
  ewtsIdPadded : Text
  initialized : Bool
  enabled : Bool
  levelMin : Int
  unitLog : Int
  path : Text

/-- What an initialisation leaves: the variables, the logger, and the lines that it printed. -/
structure Outcome where
  vars : Variables
  logger : LoggerState
  lines : List Text

variable (read : ListRead) (env : Environ)

/-- The rank and the prefix of the lines; `none` when the program stops. -/
def Variables.readRank (vars : Variables) : Option Variables :=
  match env (text "EWTS_RANK") with
  | none => some { vars with val := blanks 16, status := 1, linePrefix := assign 64 (text "EWTS") }
  | some v =>
    if 16 < v.length then
      some { vars with val := assign 16 v, status := -1, linePrefix := assign 64 (text "EWTS") }
    else (read.integer (assign 16 v)).map fun rank =>
      { val := assign 16 v
        status := 0
        gMpiRank := rank
        linePrefix := assign 64 (text "[rank " ++
          (if rank < 0 then ch '-' :: decimal rank.natAbs else decimal rank.natAbs) ++
            text "] EWTS") }

/-- The value of a variable that is set and not empty, as `v` takes it. -/
def nonemptyValue (name : Text) : Option Text :=
  ((env (trim name)).filter (· ≠ [])).map (assign 256)

/-- `init_logger_state`, without and with the bridge compiled in. -/
def initLoggerState (bridge : Bool) (vars : Variables) (logger : LoggerState) : Option Outcome :=
  if logger.initialized then some ⟨vars, logger, []⟩
  else (vars.readRank read env).map fun vars =>
    let line (t : Text) : Text :=
      trim vars.linePrefix ++ ch ' ' :: trim logger.ewtsId ++ ch ' ' :: t
    let name (level : Int) : Text := trim (ewtsLogLevelName level)
    let enabled := ((nonemptyValue env (text "EWTS_ENABLED")).map parseEnabled).getD true
    let key := envKeyFor logger.ewtsId
    let own := ((nonemptyValue env key).map (parseLevel read)).getD 0
    let ownLine := match nonemptyValue env key with
      | some _ => text "log level from env var " ++ trim key ++ text " is " ++ name own
      | none => text "log level env var " ++ trim key ++ text " not found"
    let fallback := ((nonemptyValue env (text "EWTS_LOG_LEVEL")).map (parseLevel read)).getD 20
    let fallbackLine := match nonemptyValue env (text "EWTS_LOG_LEVEL") with
      | some _ => text "global log level from env var is " ++ name fallback
      | none => text "using default log level " ++ name fallback
    let level := if own = 0 then if fallback = 0 then 20 else fallback else own
    { vars := vars
      logger := { logger with initialized := true, enabled := enabled, levelMin := level }
      lines := [line (if enabled then text "logging ENABLED" else text "logging DISABLED"),
          line ownLine] ++ (if own = 0 then [line fallbackLine] else []) ++
        [line (text "log level set to " ++ name level),
          line (if bridge then text "using ngen for logging" else text "logging standalone")] }

/-! ## Reading integers -/

theorem mem_blanks {n : Nat} {c : CodePoint} (h : c ∈ blanks n) :
    decide (c = ch ' ') = true :=
  decide_eq_true (List.eq_of_mem_replicate h)

theorem isDigit_ne_blank {c : CodePoint} (h : c.isDigit = true) :
    decide (c = ch ' ') = false := by
  apply decide_eq_false
  rintro rfl
  exact absurd h (by decide)

/-- Blanks at the end of a variable are trimmed away. -/
theorem trim_assign {n : Nat} {s : Text} (h : ∀ c ∈ (s.take n).getLast?, c ≠ ch ' ') :
    trim (assign n s) = s.take n := by
  rw [assign, trim, rdropWhile_append_of_pos fun c hc => mem_blanks hc,
    List.rdropWhile_eq_self_iff]
  intro hne
  simpa using h _ (List.getLast?_eq_some_getLast hne)

/-- A reader of plain numbers. -/
def readPlain (s : Text) : Option Int :=
  let t := trimWith (· = ch ' ') s
  if t ≠ [] ∧ (∀ c ∈ t, c.isDigit = true) ∧ decimalValue t < 2147483648 then
    some (decimalValue t)
  else none

/-- A blank field holds no integer. -/
theorem readPlain_blanks (n : Nat) : readPlain (blanks n) = none := by
  have hnil : trimWith (· = ch ' ') (blanks n) = [] := by
    rw [trimWith, List.dropWhile_eq_nil_iff.mpr fun c hc => mem_blanks hc]
    rfl
  rw [readPlain, hnil]
  rfl

/-- Nor does one that begins with a letter. -/
theorem readPlain_letter (n : Nat) (c : CodePoint) (s : Text)
    (hc : (0x41 ≤ c.val ∧ c.val ≤ 0x5A) ∨ (0x61 ≤ c.val ∧ c.val ≤ 0x7A)) :
    readPlain (blanks n ++ c :: s) = none := by
  have hletter : c ≠ ch ' ' ∧ c.isDigit = false := by
    constructor
    · rintro rfl
      revert hc
      decide
    · simp only [CodePoint.isDigit, Bool.and_eq_false_iff, decide_eq_false_iff_not]
      omega
  have hdrop : (blanks n ++ c :: s).dropWhile (· = ch ' ') = c :: s := by
    rw [List.dropWhile_append_of_pos fun x hx => mem_blanks hx, List.dropWhile_cons,
      decide_eq_false hletter.1, if_neg Bool.false_ne_true]
  unfold readPlain
  simp only
  rw [if_neg]
  rintro ⟨hne, hdigits, _⟩
  -- What is left begins with the letter.
  have hpre : trimWith (· = ch ' ') (blanks n ++ c :: s) <+: c :: s := by
    rw [trimWith, hdrop]
    exact List.rdropWhile_prefix ..
  obtain ⟨d, t, ht⟩ := List.exists_cons_of_ne_nil hne
  rw [ht] at hpre hdigits
  have hd : d = c := (List.cons_prefix_cons.mp hpre).1
  have hdigit := hdigits d (List.mem_cons_self ..)
  rw [hd, hletter.2] at hdigit
  cases hdigit

/-- A number between blanks is read, up to the largest default integer. -/
theorem readPlain_decimal (n m k : Nat) (hn : n < 2147483648) :
    readPlain (blanks m ++ (decimal n ++ blanks k)) = some n := by
  have hdigits : ∀ c ∈ decimal n, c.isDigit = true := fun c hc => isDigit_of_mem_decimal hc
  have htrim : trimWith (· = ch ' ') (blanks m ++ (decimal n ++ blanks k)) = decimal n :=
    trimWith_around (fun _ => mem_blanks) (fun _ => mem_blanks) (decimal_ne_nil n)
      (fun c hc => isDigit_ne_blank (hdigits c (List.mem_of_head? hc)))
      (fun c hc => isDigit_ne_blank (hdigits c (List.mem_of_getLast? hc)))
  rw [readPlain, htrim, decimalValue_decimal]
  exact if_pos ⟨decimal_ne_nil n, hdigits, hn⟩

/-- So there is such a read. -/
def ListRead.plain : ListRead := ⟨readPlain, readPlain_blanks, readPlain_letter, readPlain_decimal⟩

end Ewts.Fortran
