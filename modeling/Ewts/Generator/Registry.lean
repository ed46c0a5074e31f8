import Ewts.Runtime.Python.Str

/-!
# The module registry

`tools/generate_language_constants.py` reads the registry of modules as data, and checks it
before it generates anything: every entry by itself, then that no key comes twice.
-/

namespace Ewts.Generator

open Python

/-! ## Specifications -/

/-- What a YAML or JSON reader returns. -/
inductive Data where
  | null
  | bool (b : Bool)
  | int (n : Int)
  | str (s : Text)
  | list (items : List Data)
  | dict (items : List (Data × Data))
  /-- A number with a fraction, a date, or bytes. -/
  | other (truthy : Bool)

/-- Why a run stops. -/
inductive Stop where
  /-- `SystemExit` with a message. -/
  | exit (message : Text)
  /-- Any other exception. -/
  | raised
  deriving DecidableEq

/-- `d.get(name)`. -/
def lookupName (items : List (Data × Data)) (name : Text) : Option Data :=
  (items.find? fun e => match e.1 with
    | .str s => decide (s = name)
    | _ => false).map Prod.snd

/-- `bool(value)`. -/
def Data.truthy : Data → Bool
  | .null => false
  | .bool b => b
  | .int n => n ≠ 0
  | .str s => s ≠ []
  | .list items => !items.isEmpty
  | .dict items => !items.isEmpty
  | .other truthy => truthy

/-- `isinstance(value, int)`, which holds of `True` and `False`. -/
def Data.isInt : Data → Bool
  | .int _ | .bool _ => true
  | _ => false

/-- `isinstance(value, str)`. -/
def Data.isStr : Data → Bool
  | .str _ => true
  | _ => false

/-- `type(value).__name__`, of a value that JSON has. -/
def Data.typeName : Data → Text
  | .null => text "NoneType"
  | .bool _ => text "bool"
  | .int _ => text "int"
  | .str _ => text "str"
  | .list _ => text "list"
  | .dict _ => text "dict"
  | .other _ => text "float"

/-- `str(value)`. Values other than texts are printed by `print`, which raises on a number of
too many digits. -/
def Data.toText (print : Data → Option Text) : Data → Except Stop Text
  | .str s => .ok s
  | value => match print value with
    | some s => .ok s
    | none => .error .raised

/-! ## Modules -/

/-- The languages of the runtimes. -/
inductive Language where
  | c
  | cpp
  | fortran
  | python
  deriving DecidableEq

/-- The language of a name. -/
def Language.ofName (s : Text) : Option Language :=
  [(text "c", .c), (text "cpp", .cpp), (text "fortran", .fortran),
    (text "python", .python)].lookup s

/-- `Module`. -/
structure Module where
  key : Text
  ewtsId : Text
  language : Language
  description : Text
  deriving DecidableEq

/-- `EWTS_ID_WIDTH`. -/
def ewtsIdWidth : Nat := 8

variable (u : Unicode) (print : Data → Option Text)

/-- `str(raw.get(name, "")).strip()`. -/
def fieldText (items : List (Data × Data)) (name : Text) : Except Stop Text :=
  ((((lookupName items name).getD (.str [])).toText print).map strip)

/-- One round of the loop of `_load_registry`. -/
def loadEntry (i : Nat) (raw : Data) : Except Stop Module := do
  let entry : Text := text "Registry entry #" ++ decimal i
  match raw with
  | .dict items =>
    let key ← fieldText print items (text "key")
    let ewtsId ← fieldText print items (text "ewts_id")
    let language := u.lower (← fieldText print items (text "language"))
    let desc ← fieldText print items (text "description")
    if key = [] then throw (.exit (entry ++ text " has an empty 'key'."))
    if ewtsId = [] then throw (.exit (entry ++ text " has an empty 'ewts_id'."))
    if language = [] then throw (.exit (entry ++ text " has an empty 'language'."))
    match Language.ofName language with
    | none => throw (.exit (entry ++ text " has unsupported language '" ++ language ++
        text "'. Expected one of: c, cpp, fortran, python."))
    | some language =>
      if ewtsIdWidth < ewtsId.length then
        throw (.exit (entry ++ text " ewts_id '" ++ ewtsId ++ text "' exceeds " ++
          decimal ewtsIdWidth ++ text " chars."))
      if u.upper ewtsId ≠ ewtsId then
        throw (.exit (entry ++ text " ewts_id '" ++ ewtsId ++ text "' must be uppercase."))
      return ⟨key, ewtsId, language, desc⟩
  | _ => throw (.exit (entry ++ text " must be a mapping."))

/-- The loop of `_load_registry`. -/
def loadEntries : Nat → List Data → Except Stop (List Module)
  | _, [] => .ok []
  | i, raw :: raws => do
    let m ← loadEntry u print i raw
    return m :: (← loadEntries (i + 1) raws)

/-- `_load_registry(registry_path)`, on the data of the file. -/
def loadRegistry (data : Data) : Except Stop (List Module) :=
  let malformed : Except Stop (List Module) := .error (.exit (text
    "Registry must be a YAML mapping with a top-level 'modules' list."))
  match data with
  | .dict items => match lookupName items (text "modules") with
    | some (.list raws) => loadEntries u print 0 raws
    | _ => malformed
  | _ => malformed

/-- `_modules_for_language(modules, language)`. -/
def modulesForLanguage (modules : List Module) (language : Language) : List Module :=
  modules.filter (·.language = language)

/-- The loop of `_validate_registry`, behind the keys that it has seen. -/
def validateFrom : List Text → List Module → Except Stop Unit
  | _, [] => .ok ()
  | seen, m :: modules =>
    if m.key ∈ seen then
      .error (.exit (text "Duplicate module key '" ++ m.key ++ text "' at entries " ++
        decimal (seen.idxOf m.key) ++ text " and " ++ decimal seen.length ++
          text ". Keys must be unique."))
    else validateFrom (seen ++ [m.key]) modules

/-- `_validate_registry(modules)`. -/
def validateRegistry (modules : List Module) : Except Stop Unit := validateFrom [] modules

/-- The modules of a registry that `_load_registry` and `_validate_registry` accept. -/
def readRegistry (data : Data) : Except Stop (List Module) := do
  let modules ← loadRegistry u print data
  validateRegistry modules
  return modules

/-- The metadata of a specification that banners show. -/
structure Meta where
  specPath : Text
  specVersion : Text
  specGeneratedUtc : Option Text

/-- The check of a version: it has a type that `accepts` allows, or is missing. -/
def checkVersion (accepts : Data → Bool) (message : Data → Text) (version : Option Data) :
    Except Stop Unit :=
  match version with
  | none | some .null => .ok ()
  | some value => if accepts value then .ok () else .error (.exit (message value))

/-- The time of a specification, a text or missing. -/
def checkGeneratedUtc (message : Data → Text) (value : Option Data) : Except Stop (Option Text) :=
  match value with
  | none | some .null => .ok none
  | some (.str s) => .ok (some s)
  | some value => .error (.exit (message value))

/-- `str(version) if version is not None else "unknown"`. -/
def specVersion (version : Option Data) : Except Stop Text :=
  match version with
  | none | some .null => .ok (text "unknown")
  | some value => value.toText print

/-- `_registry_meta(repo_root, registry_path)`. -/
def registryMeta (specPath : Text) (data : Data) : Except Stop Meta :=
  match data with
  | .dict items => do
    let version := lookupName items (text "version")
    let generatedUtc := match lookupName items (text "generated_utc") with
      | some value => if value.truthy then some value else lookupName items (text "generatedUTC")
      | none => lookupName items (text "generatedUTC")
    checkVersion (fun v => v.isInt || v.isStr)
      (fun _ => text "Registry 'version' must be an int or string when present.") version
    let generatedUtc ← checkGeneratedUtc
      (fun _ => text "Registry 'generated_utc' must be a string when present.") generatedUtc
    return ⟨specPath, ← specVersion print version, generatedUtc⟩
  | _ => .error (.exit (text "Registry must be a YAML mapping at the top level."))

/-- The metadata of a specification in JSON, whose name messages begin with. -/
def jsonMeta (file specPath : Text) (items : List (Data × Data)) : Except Stop Meta := do
  let version := lookupName items (text "version")
  checkVersion Data.isInt (fun value => file ++
    text " 'version' must be an integer when present, got " ++ value.typeName ++ text ".") version
  let generatedUtc ← checkGeneratedUtc (fun value => file ++
    text " 'generated_utc' must be a string when present, got " ++ value.typeName ++ text ".")
    (lookupName items (text "generated_utc"))
  return ⟨specPath, ← specVersion print version, generatedUtc⟩

/-! ## Accepted registries -/

/-- A registry is accepted exactly when its keys are different. -/
theorem validateRegistry_iff {modules : List Module} :
    validateRegistry modules = .ok () ↔ (modules.map Module.key).Nodup := by
  have hfrom : ∀ seen, validateFrom seen modules = .ok () ↔
      (modules.map Module.key).Nodup ∧ ∀ m ∈ modules, m.key ∉ seen := by
    induction modules with
    | nil => exact fun _ => iff_of_true rfl ⟨List.nodup_nil, fun _ h => absurd h List.not_mem_nil⟩
    | cons m modules ih =>
      intro seen
      unfold validateFrom
      by_cases hm : m.key ∈ seen
      · rw [if_pos hm]
        exact iff_of_false (fun h => nomatch h) fun h => h.2 m (List.mem_cons_self ..) hm
      · rw [if_neg hm, ih]
        simp only [List.map_cons, List.nodup_cons, List.mem_map, List.forall_mem_cons,
          List.mem_append, List.mem_singleton, not_or, not_exists, not_and]
        constructor
        · rintro ⟨hnodup, hseen⟩
          exact ⟨⟨fun n hn => (hseen n hn).2, hnodup⟩, hm, fun n hn => (hseen n hn).1⟩
        · rintro ⟨⟨hother, hnodup⟩, _, hseen⟩
          exact ⟨hnodup, fun n hn => ⟨hseen n hn, hother n hn⟩⟩
  simpa [validateRegistry] using hfrom []

end Ewts.Generator
