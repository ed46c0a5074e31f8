import Ewts.Core.CString

/-!
# The module registry of ngen

The generated table of module keys with their EWTS ids, and the lookups on it.
-/

namespace Ewts.Ngen

/-- A row of the table; the descriptions have no influence on logging. -/
structure ModuleEntry where
  key : Text
  ewtsId : Text
  deriving DecidableEq

/-- `kModules`, in registry order. -/
def kModules : List ModuleEntry :=
  [("ngen", "NGEN"), ("cfe-s", "CFE"), ("cfe-x", "CFE"), ("cfe", "CFE"), ("forcing", "FORCING"),
    ("lasam", "LASAM"), ("lstm", "LSTM"), ("noah-owp-modular", "NOAHOWP"), ("pet", "PET"),
    ("sac-sma", "SACSMA"), ("sft", "SFT"), ("smp", "SMP"), ("snow-17", "SNOW17"),
    ("topmodel", "TOPMODEL"), ("topoflow-glacier", "TFGLACR"), ("t-route", "TROUTE"),
    ("ueb", "UEB_BMI"), ("schism", "SCHISM"), ("sfincs", "SFINCS"), ("msw-mgr", "MSWMGR"),
    ("cal-mgr", "CALMGR"), ("eval-mgr", "EVALMGR"), ("fcst-mgr", "FCSTMGR"), ("rte", "RTE"),
    ("assim-engine", "ASSIM")].map fun e => ⟨text e.1, text e.2⟩

/-- `EwtsIdFromKey(key)`: `strcmp` against every key. -/
def ewtsIdFromKey (key : Text) : Option Text :=
  (kModules.find? fun e => e.key = cStr key).map ModuleEntry.ewtsId

/-- `EnvVarIdentFromModuleKey(key)`: the exact key, then the lower-cased one; empty
when neither is registered. -/
def envVarIdentFromModuleKey (key : Text) : Text :=
  if key = [] then []
  else match ewtsIdFromKey key with
    | some id => id
    | none => (ewtsIdFromKey (key.map CodePoint.toLower)).getD []

/-- The EWTS ids of the registry. -/
def registeredIds : List Text := kModules.map ModuleEntry.ewtsId

/-- The entry at which the threshold lookup for an id stops. -/
def firstEntry (id : Text) : Option ModuleEntry := kModules.find? fun e => e.ewtsId = id

/-- `<ID>_LOGLEVEL`. -/
def levelVariable (id : Text) : Text := id ++ text "_LOGLEVEL"

/-- Ids differ by the variables of their levels. -/
theorem levelVariable_injective : Function.Injective levelVariable :=
  fun _ _ h => List.append_cancel_right h

/-- A registered key is given and stands for its id. -/
theorem entry_key : ∀ e ∈ kModules, e.key ≠ [] ∧ envVarIdentFromModuleKey e.key = e.ewtsId := by
  decide

/-- No registered id is empty. -/
theorem registeredIds_ne_nil {id : Text} (h : id ∈ registeredIds) : id ≠ [] := by
  revert id
  decide

end Ewts.Ngen
