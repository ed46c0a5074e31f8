import Ewts.Core.Json.Scanner

/-!
# Property trees

`boost::property_tree::read_json` keeps the scalars of an object as texts and forgets
their types. `TreeReader` states this for flat objects, which is all that is read here.
-/

namespace Ewts.Json

/-- The data that a scalar leaves in its tree node: strings decoded, anything else as it
is written. -/
def leafText : Value → Option Text
  | .null => some (text "null")
  | .bool b => some (if b then text "true" else text "false")
  | .num n => some n.text
  | .str s => some s
  | _ => none

/-- The children of a flat object: keys with their data, in order. -/
def leaves (ms : List (Text × Value)) : Option (List (Text × Text)) :=
  ms.mapM fun m => (leafText m.2).map fun t => (m.1, t)

/-- `read_json` on a stream: the children of the root, or the text of the exception. The
texts of a tree are UTF-8, so an escape that leaves a lone surrogate is an error. -/
structure TreeReader where
  read : Text → Except Text (List (Text × Text))
  reads_flat : ∀ s ms kvs, IsText anyNumeral s (.obj ms) → leaves ms = some kvs →
    (∀ kv ∈ kvs, kv.1.Scalar ∧ kv.2.Scalar) → read s = .ok kvs
  refuses_surrogates : ∀ s ms kvs, s.Scalar → IsText anyNumeral s (.obj ms) →
    leaves ms = some kvs → ¬ (∀ kv ∈ kvs, kv.1.Scalar ∧ kv.2.Scalar) → ∃ e, read s = .error e
  error_scalar : ∀ s e, read s = .error e → e.Scalar

/-- `get_optional<std::string>(key)`: the data of the first child with the key. -/
def treeGet (kvs : List (Text × Text)) (key : Text) : Option Text := kvs.lookup key

/-- Read a flat object with the scanner; an escape that UTF-8 cannot carry is an error. -/
def readFlat (s : Text) : Except Text (List (Text × Text)) :=
  match scanText rfc8259 s with
  | some (.obj ms) => match leaves ms with
    | some kvs =>
      if ∀ kv ∈ kvs, kv.1.Scalar ∧ kv.2.Scalar then .ok kvs
      else .error (text "<unspecified file>(1): invalid codepoint, stray high surrogate")
    | none => .error (text "<unspecified file>(1): nested value")
  | _ => .error (text "<unspecified file>(1): expected value")

/-- The scanner of the standard dialect reads every text of the grammar. -/
private theorem scanText_rfc8259 {s : Text} {v : Value} (h : IsText anyNumeral s v) :
    scanText rfc8259 s = some v := by
  have hs : IsText (fun n => rfc8259.accepts n = true) s v := h.mono fun _ _ => rfl
  exact hs.scanText

/-- Reading with the scanner has the stated properties. -/
def TreeReader.flat : TreeReader where
  read := readFlat
  reads_flat s ms kvs hs hkvs hscalar := by
    simp only [readFlat, scanText_rfc8259 hs, hkvs, if_pos hscalar]
  refuses_surrogates s ms kvs _ hs hkvs hscalar := by
    simp only [readFlat, scanText_rfc8259 hs, hkvs, if_neg hscalar]
    exact ⟨_, rfl⟩
  error_scalar s e h := by
    unfold readFlat at h
    split at h
    · split at h
      · split at h
        · cases h
        · cases h
          decide
      · cases h
        decide
    · cases h
      decide

end Ewts.Json
