/-
AppSynthesis.Schema.Record — records in documents.

* `Fields α` — the fields of a record in order, each with its name in
  messages, its key in documents and its codec. `α` is the product of the
  types of the fields.
* `Schema α` — a record type: its name, its fields, and the passage
  between the type and the product.
* `Schema.decode` — keys that the record does not have are refused before
  anything else; then each field is read in order. A fault inside a field
  is reported as a fault of that field, with its whole value.
* `Schema.encode` — the fields in order; one that is absent is left out.
* `Fields.values` — the fields by name, absent ones included.
* `Schema.codec` — records as fields of records.
-/
import AppSynthesis.Schema.Codec

namespace AppSynthesis

/-! ## Faults -/

/-- Why a value is not the record that it should be. -/
inductive DecodeError where
  /-- The value is no map. -/
  | notMap
  /-- The map has keys that the record does not have. -/
  | unknownKeys (record : String) (keys : List Value)
  /-- A required field is not there. -/
  | missing (record field label : String)
  /-- The value of a field cannot be read. -/
  | invalid (record field label : String) (value : Value)
  deriving DecidableEq, Repr

/-- Texts in the order of their code points. -/
def sortTexts (texts : List String) : List String :=
  texts.mergeSort fun a b => decide (a ≤ b)

/-- The wording of a fault. -/
def DecodeError.message : DecodeError → String
  | .notMap => ""
  | .unknownKeys record keys =>
    "Serialized dict has keys that are not defined in " ++ record ++ ": "
      ++ String.intercalate ", " (sortTexts (keys.map Value.text))
  | .missing record field label =>
    "Field \"" ++ field ++ "\" of type " ++ label ++ " is missing in " ++ record ++ " instance"
  | .invalid record field label value =>
    "Field \"" ++ field ++ "\" of type " ++ label ++ " in " ++ record
      ++ " has invalid value " ++ value.literal

/-! ## Fields -/

/-- The label of a field that may be absent. -/
def optionalLabel (label : String) : String := "Optional[" ++ label ++ "]"

/-- The fields of a record. -/
inductive Fields : Type → Type 1 where
  | done : Fields Unit
  /-- A field that must be there. -/
  | required {β γ : Type} (name key : String) (codec : Codec β) (rest : Fields γ) :
      Fields (β × γ)
  /-- A field with a value of its own when it is not there. -/
  | defaulted {β γ : Type} (name key : String) (codec : Codec β) (value : β)
      (rest : Fields γ) : Fields (β × γ)
  /-- A field that may be absent; null means absent. -/
  | optional {β γ : Type} (name key : String) (codec : Codec β) (rest : Fields γ) :
      Fields (Option β × γ)
  /-- A field that may be absent and holds any value, null when absent. -/
  | loose {γ : Type} (name key : String) (codec : Codec Value) (rest : Fields γ) :
      Fields (Value × γ)

namespace Fields

/-- The keys of the fields, in order. -/
def keys {α : Type} : Fields α → List String
  | .done => []
  | .required _ key _ rest => key :: rest.keys
  | .defaulted _ key _ _ rest => key :: rest.keys
  | .optional _ key _ rest => key :: rest.keys
  | .loose _ key _ rest => key :: rest.keys

/-- The value of a field, or the fault of the field. -/
def readField {β : Type} (record name label : String) (codec : Codec β) (v : Value) :
    Except DecodeError β :=
  match codec.read v with
  | some x => .ok x
  | none => .error (.invalid record name label v)

/-- The fields read from the entries of a map. -/
def decode {α : Type} (record : String) : Fields α → Entries → Except DecodeError α
  | .done, _ => .ok ()
  | .required name key codec rest, entries => do
    let x ← match Entries.get? entries key with
      | none => .error (.missing record name codec.label)
      | some v => readField record name codec.label codec v
    return (x, ← rest.decode record entries)
  | .defaulted name key codec value rest, entries => do
    let x ← match Entries.get? entries key with
      | none => .ok value
      | some v => readField record name codec.label codec v
    return (x, ← rest.decode record entries)
  | .optional name key codec rest, entries => do
    let x ← match Entries.getD entries key with
      | .null => .ok none
      | v => some <$> readField record name (optionalLabel codec.label) codec v
    return (x, ← rest.decode record entries)
  | .loose name key codec rest, entries => do
    let x ← match Entries.getD entries key with
      | .null => .ok .null
      | v => readField record name (optionalLabel codec.label) codec v
    return (x, ← rest.decode record entries)

/-- The entries that fields are written as. -/
def encode {α : Type} : Fields α → α → Entries
  | .done, _ => []
  | .required _ key codec rest, (x, xs) => (.str key, codec.write x) :: rest.encode xs
  | .defaulted _ key codec _ rest, (x, xs) => (.str key, codec.write x) :: rest.encode xs
  | .optional _ key codec rest, (x, xs) =>
    match x with
    | none => rest.encode xs
    | some y => (.str key, codec.write y) :: rest.encode xs
  | .loose _ key codec rest, (x, xs) =>
    if x = .null then rest.encode xs else (.str key, codec.write x) :: rest.encode xs

/-- The written fields by name; one that is absent is null. -/
def values {α : Type} : Fields α → α → List (String × Value)
  | .done, _ => []
  | .required name _ codec rest, (x, xs) => (name, codec.write x) :: rest.values xs
  | .defaulted name _ codec _ rest, (x, xs) => (name, codec.write x) :: rest.values xs
  | .optional name _ codec rest, (x, xs) =>
    (name, (x.map codec.write).getD .null) :: rest.values xs
  | .loose name _ codec rest, (x, xs) => (name, codec.write x) :: rest.values xs

/-- Equality of rows of fields. -/
def same {α : Type} : Fields α → α → α → Bool
  | .done, _, _ => true
  | .required _ _ codec rest, (x, xs), (y, ys) => codec.same x y && rest.same xs ys
  | .defaulted _ _ codec _ rest, (x, xs), (y, ys) => codec.same x y && rest.same xs ys
  | .optional _ _ codec rest, (x, xs), (y, ys) =>
    (match x, y with
      | none, none => true
      | some a, some b => codec.same a b
      | _, _ => false) && rest.same xs ys
  | .loose _ _ codec rest, (x, xs), (y, ys) => codec.same x y && rest.same xs ys

end Fields

/-! ## Schemas -/

/-- How the records of a type stand in documents. -/
structure Schema (α : Type) where
  /-- The name of the record type in messages. -/
  name : String
  /-- The product of the types of the fields. -/
  Row : Type
  /-- The fields, in order. -/
  fields : Fields Row
  /-- The record with the given fields. -/
  build : Row → α
  /-- The fields of a record. -/
  row : α → Row
  build_row : ∀ x, build (row x) = x := by intro x; rfl
  row_build : ∀ r, row (build r) = r := by intro r; rfl

namespace Schema

/-- The keys of a map that a record does not have. -/
def unknownKeys {α : Type} (s : Schema α) (entries : Entries) : List Value :=
  (entries.map (·.1)).filter fun k =>
    match k with
    | .str key => !s.fields.keys.contains key
    | _ => true

/-- The record that a value stands for. -/
def decode {α : Type} (s : Schema α) : Value → Except DecodeError α
  | .map _ entries =>
    match s.unknownKeys entries with
    | [] => s.build <$> s.fields.decode s.name entries
    | keys => .error (.unknownKeys s.name keys)
  | _ => .error .notMap

/-- The value that a record is written as. -/
def encode {α : Type} (s : Schema α) (x : α) : Value :=
  .map none (s.fields.encode (s.row x))

/-- Equality of records: all fields are equal. -/
def same {α : Type} (s : Schema α) (x y : α) : Bool :=
  s.fields.same (s.row x) (s.row y)

/-- Records as fields of other records. -/
def codec {α : Type} (s : Schema α) : Codec α where
  label := s.name
  read v := (s.decode v).toOption
  write := s.encode
  same := s.same

end Schema

end AppSynthesis
