import Ewts.Core.CString
import Ewts.Core.Dict
import Ewts.Generator.Registry
import Ewts.Runtime.Fortran.Logger

/-!
# Log-level files

The generator writes one function from a number to a name for each language. C, C++ and
Fortran compare with the numbers in order, Python goes through its dictionary.
-/

namespace Ewts.Generator

open Python

/-- The value of a level. `isinstance` takes `True` and `False` for numbers. -/
inductive LevelValue where
  | int (n : Int)
  | bool (b : Bool)
  deriving DecidableEq

/-- The number that a value compares as. -/
def LevelValue.num : LevelValue → Int
  | .int n => n
  | .bool b => if b then 1 else 0

/-- The constant that a compiler finds in a file: there is none named `True`. -/
def LevelValue.constant : LevelValue → Option Int
  | .int n => some n
  | .bool _ => none

/-- What the log-level files are made from: `LEVELS`, `DEFAULT_LEVEL_NAME`, and metadata. -/
structure LogLevels where
  levels : Dict Text LevelValue
  defaultName : Text
  info : Meta

/-- The loop of `_load_log_levels`, behind the levels that it has parsed. -/
def parseLevels : Dict Text LevelValue → List (Data × Data) → Except Stop (Dict Text LevelValue)
  | parsed, [] => .ok parsed
  | parsed, (name, val) :: items =>
    let unnamed : Except Stop (Dict Text LevelValue) :=
      .error (.exit (text "log_levels.json 'levels' keys must be non-empty strings."))
    match name with
    | .str s =>
      if strip s = [] then unnamed
      else match val with
        | .int n => parseLevels (parsed.set (strip s) (.int n)) items
        | .bool b => parseLevels (parsed.set (strip s) (.bool b)) items
        | _ => .error (.exit (text "log_levels.json level '" ++ s ++
            text "' must be an integer, got " ++ val.typeName ++ text "."))
    | _ => unnamed

/-- The default level: `INFO`, else the one of before, else the first of the least number. -/
def stableDefault (current : Text) (levels : Dict Text LevelValue) : Text :=
  if (levels.get (text "INFO")).isSome then text "INFO"
  else if (levels.get current).isSome then current
  else match (levels.map (·.2.num)).min? with
    | none => current
    | some least => ((levels.find? (·.2.num = least)).map Prod.fst).getD current

/-- `_load_log_levels(log_levels_path)`, where `current` is the default name of before. -/
def loadLogLevels (print : Data → Option Text) (current specPath : Text) (data : Data) :
    Except Stop LogLevels :=
  match data with
  | .dict top => match lookupName top (text "levels") with
    | some (.dict (item :: items)) => do
      let levels ← parseLevels [] (item :: items)
      return ⟨levels, stableDefault current levels,
        ← jsonMeta print (text "log_levels.json") specPath top⟩
    | _ => .error (.exit (text "log_levels.json must contain a non-empty 'levels' object."))
  | _ => .error (.exit (text "log_levels.json must be a JSON object at the top level."))

namespace LogLevels

variable (spec : LogLevels) (level : Int)

/-- `sorted(LEVELS.items(), key=lambda kv: kv[1])`. -/
def sorted : List (Text × LevelValue) :=
  spec.levels.insertionSort fun a b => a.2.num ≤ b.2.num

/-- The names and labels of the files, `none` when a label is no constant. -/
def cases : Option (List (Text × Int)) :=
  spec.sorted.mapM fun c => c.2.constant.map fun n => (c.1, n)

/-- The name of the first case with a property, or the default name. -/
def nameWhere (cases : List (Text × Int)) (p : Int → Bool) : Text :=
  ((cases.find? (p ·.2)).map Prod.fst).getD spec.defaultName

/-- `ewts_log_level_name(level)` of C. A label is converted to `int`, and no two may be equal
then. -/
def cName : Option Text :=
  spec.cases.bind fun cases =>
    if (cases.map (toInt32 ·.2)).Nodup then some (spec.nameWhere cases (toInt32 · = level))
    else none

/-- `LogLevelName(level)` of C++. -/
def cppName : Option Text :=
  spec.cases.map fun cases => spec.nameWhere cases (· = level)

/-- `ewts_log_level_name(level)` of Fortran. A label is a default integer, and no two are
equal; the name has 16 characters. -/
def fortranName : Option Text :=
  spec.cases.bind fun cases =>
    if (∀ c ∈ cases, c.2.natAbs ≤ 2147483647) ∧ (cases.map Prod.snd).Nodup then
      some (Fortran.assign 16 (spec.nameWhere cases (· = level)))
    else none

/-- `log_level_name(level)` of Python. -/
def pythonName : Text :=
  ((spec.levels.find? (·.2.num = level)).map Prod.fst).getD spec.defaultName

end LogLevels

end Ewts.Generator
