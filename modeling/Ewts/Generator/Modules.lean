import Ewts.Core.Dict
import Ewts.Core.Literal
import Ewts.Core.Words
import Ewts.Generator.Registry

/-!
# Module files

What the generator writes about modules: constants whose names are derived from the keys, and
tables for lookups. The parts of the files that do not depend on the registry are left out.
-/

namespace Ewts.Generator

open Python

variable (u : Unicode)

/-! ## Constants -/

/-- A character that the regular expression of `_ident_from_key` replaces. -/
def isSeparator (c : CodePoint) : Bool :=
  !((0x41 ≤ c.val && c.val ≤ 0x5A) || (0x30 ≤ c.val && c.val ≤ 0x39))

/-- `_ident_from_key(key)`. -/
def identFromKey (key : Text) : Text :=
  let s := subRuns isSeparator (ch '_') (u.upper (strip key))
  let s := trimWith (· = ch '_') (subRuns (· = ch '_') (ch '_') s)
  let s := if s = [] then text "MODULE" else s
  if s.head?.any u.isDigit then text "M_" ++ s else s

/-- A constant of a generated file: its name and the text between its quotes. -/
structure Declaration where
  name : Text
  value : Text
  deriving DecidableEq

/-- The constants of the C, C++, Fortran and ngen files. -/
def declarations (modules : List Module) : List Declaration :=
  modules.flatMap fun m =>
    [⟨text "EWTS_KEY_" ++ identFromKey u m.key, m.key⟩,
      ⟨text "EWTS_ID_" ++ identFromKey u m.key, m.ewtsId⟩]

/-- The members of `ModuleKey`. -/
def enumMembers (modules : List Module) : List Declaration :=
  modules.map fun m => ⟨identFromKey u m.key, m.key⟩

/-- The assignments behind `ModuleKey`. -/
def assignments (modules : List Module) : List Declaration :=
  (modules.map fun m => ⟨identFromKey u m.key ++ text "_KEY", m.key⟩) ++
    modules.map fun m => ⟨identFromKey u m.key ++ text "_ID", m.ewtsId⟩

/-! ## Tables -/

/-- `s.replace(c, by)` for a single character. -/
def replaceChar (c : CodePoint) (by' : Text) (s : Text) : Text :=
  s.flatMap fun d => if d = c then by' else [d]

/-- A row of a table: `    {"key", "ewts_id", "description"}`. -/
def initializer (m : Module) (desc : Text) : Text :=
  text "    \x7b\"" ++ m.key ++ text "\", \"" ++ m.ewtsId ++ text "\", \"" ++ desc ++
    text "\"\x7d"

/-- The rows of `ewts_modules`. -/
def cRows (modules : List Module) : List Text :=
  modules.map fun m => initializer m (replaceChar quote [backslash, quote] m.description)

/-- The rows of `kModules`. -/
def cppRows (modules : List Module) : List Text :=
  modules.map fun m => initializer m (replaceChar quote [backslash, quote]
    (replaceChar backslash [backslash, backslash] m.description))

/-- The rows of `kModules` in the file of ngen. -/
def ngenRows (modules : List Module) : List Text :=
  modules.map fun m => initializer m (replaceChar quote [backslash, quote]
    (replaceChar backslash [backslash, backslash] m.description))

/-- `ewts_module_entry`, and `ModuleEntry`. -/
structure Entry where
  key : Text
  ewtsId : Text
  description : Text
  deriving DecidableEq

/-- What a compiler makes of a row, `none` when it is not three literals. -/
def readRow (row : Text) : Option Entry := do
  let s ← row.dropPrefix? (text "    \x7b\"")
  let (key, s) ← readLiteral s
  let s ← s.dropPrefix? (text ", \"")
  let (ewtsId, s) ← readLiteral s
  let s ← s.dropPrefix? (text ", \"")
  let (desc, s) ← readLiteral s
  if s = text "\x7d" then some ⟨cStr key, cStr ewtsId, cStr desc⟩ else none

/-- A compiled table. Rows with lone surrogates are not written. -/
def readTable (rows : List Text) : Option (List Entry) :=
  rows.mapM fun row => if row.Scalar then readRow row else none

/-! ## Lookups in C and C++ -/

section Lookup

variable (table : List Entry) (key ewtsId : Option Text)

/-- `ewts_module_id_from_key(key)` and `EwtsIdFromKey(key)`. -/
def moduleIdFromKey : Option Text :=
  key.bind fun key => (table.find? (·.key = key)).map Entry.ewtsId

/-- `ewts_description_from_key(key)` and `DescriptionFromKey(key)`. -/
def descriptionFromKey : Option Text :=
  key.bind fun key => (table.find? (·.key = key)).map Entry.description

/-- `ewts_first_key_from_module_id(ewts_id)` and `FirstKeyFromEwtsId(ewts_id)`. -/
def firstKeyFromModuleId : Option Text :=
  ewtsId.bind fun ewtsId => (table.find? (·.ewtsId = ewtsId)).map Entry.key

/-- `ewts_first_description_from_module_id(ewts_id)` and `FirstDescriptionFromEwtsId(ewts_id)`. -/
def firstDescriptionFromModuleId : Option Text :=
  ewtsId.bind fun ewtsId => (table.find? (·.ewtsId = ewtsId)).map Entry.description

/-- What a call that fills a buffer returns, and its writes, as places and texts. -/
structure Filled where
  count : Nat
  writes : List (Nat × Text)

/-- One round of the loops of C: `out` tells that there is a buffer. -/
def fillStep (out : Bool) (size : Nat) (ewtsId : Text) (field : Entry → Text) (f : Filled)
    (e : Entry) : Filled :=
  if e.ewtsId = ewtsId then
    ⟨f.count + 1, f.writes ++ if out && f.count < size then [(f.count, field e)] else []⟩
  else f

/-- The loops of C that fill a buffer with one field. -/
def fill (field : Entry → Text) (out : Bool) (size : Nat) : Filled :=
  match ewtsId with
  | none => ⟨0, []⟩
  | some ewtsId => table.foldl (fillStep out size ewtsId field) ⟨0, []⟩

/-- `ewts_keys_from_module_id(ewts_id, out_keys, max_keys)`. -/
def keysFromModuleId (out : Bool) (maxKeys : Nat) : Filled :=
  fill table ewtsId Entry.key out maxKeys

/-- `ewts_descriptions_from_module_id(ewts_id, out_descs, max_descs)`. -/
def descriptionsFromModuleId (out : Bool) (maxDescs : Nat) : Filled :=
  fill table ewtsId Entry.description out maxDescs

/-- The loops of C++ that collect one field. -/
def collect (field : Entry → Text) : List Text :=
  match ewtsId with
  | none => []
  | some ewtsId => table.foldl
      (fun out e => if e.ewtsId = ewtsId then out ++ [field e] else out) []

/-- `KeysFromEwtsId(ewts_id)`. -/
def keysFromEwtsId : List Text := collect table ewtsId Entry.key

/-- `DescriptionsFromEwtsId(ewts_id)`. -/
def descriptionsFromEwtsId : List Text := collect table ewtsId Entry.description

end Lookup

/-! ## Lookups in Python -/

section Dictionaries

variable (modules : List Module)

/-- `KEY_TO_EWTS_ID`. -/
def keyToEwtsId : Dict Text Text := Dict.ofPairs (modules.map fun m => (m.key, m.ewtsId))

/-- `KEY_TO_DESCRIPTION`. -/
def keyToDescription : Dict Text Text :=
  Dict.ofPairs (modules.map fun m => (m.key, m.description))

/-- `EWTS_ID_TO_KEYS`. -/
def ewtsIdToKeys : Dict Text (List Text) := Dict.group (modules.map fun m => (m.ewtsId, m.key))

/-- `EWTS_ID_TO_DESCRIPTIONS`. -/
def ewtsIdToDescriptions : Dict Text (List Text) :=
  Dict.group (modules.map fun m => (m.ewtsId, m.description))

/-- `xs[0] if xs else None`, for a list or `None`. -/
def firstOf (xs : Option (List Text)) : Option Text := xs.bind List.head?

namespace PythonKeys

/-- `ewts_id_from_key(key)`. -/
def ewtsIdFromKey (key : Text) : Option Text := (keyToEwtsId modules).get key

/-- `description_from_key(key)`. -/
def descriptionFromKey (key : Text) : Option Text := (keyToDescription modules).get key

/-- `keys_from_ewts_id(ewts_id)`. -/
def keysFromEwtsId (ewtsId : Text) : List Text := ((ewtsIdToKeys modules).get ewtsId).getD []

/-- `descriptions_from_ewts_id(ewts_id)`. -/
def descriptionsFromEwtsId (ewtsId : Text) : List Text :=
  ((ewtsIdToDescriptions modules).get ewtsId).getD []

/-- `first_key_from_ewts_id(ewts_id)`. -/
def firstKeyFromEwtsId (ewtsId : Text) : Option Text := firstOf ((ewtsIdToKeys modules).get ewtsId)

/-- `first_description_from_ewts_id(ewts_id)`. -/
def firstDescriptionFromEwtsId (ewtsId : Text) : Option Text :=
  firstOf ((ewtsIdToDescriptions modules).get ewtsId)

end PythonKeys

end Dictionaries

/-! ## Fortran tables -/

/-- `max(len(m.field) for m in modules)`, which raises when there is no module. -/
def maxLength (lengths : List Nat) : Except Stop Nat :=
  match lengths.max? with
  | some n => .ok n
  | none => .error .raised

/-- The arrays of the Fortran module and the lengths of their elements. -/
structure FortranTable where
  keyLen : Nat
  idLen : Nat
  descLen : Nat
  keys : List Text
  ids : List Text
  descs : List Text

/-- The arrays that `_generate_fortran_module_keys` writes. Quotes are left out of
descriptions. -/
def fortranTable (modules : List Module) : Except Stop FortranTable := do
  let maxKey ← maxLength (modules.map (·.key.length))
  let maxId ← maxLength (modules.map (·.ewtsId.length))
  let maxDesc := ((modules.map (·.description.length)).max?).getD 0
  return {
    keyLen := max maxKey 1
    idLen := max maxId 1
    descLen := max maxDesc 1
    keys := modules.map Module.key
    ids := modules.map Module.ewtsId
    descs := modules.map fun m => replaceChar quote [] m.description }

end Ewts.Generator
