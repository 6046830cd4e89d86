/-
AppSynthesis.Schema.Codec — reading typed data out of document values and
writing it back.

* `Codec α` — how a type is called in messages, how a value is read as
  one of its elements, how an element is written, and when two elements
  are equal.
* `Codec.text`, `Codec.flag`, `Codec.count`, `Codec.duration`,
  `Codec.textMap`, `Codec.valueMap`, `Codec.list` — the codecs of fields.
  Reading converts generously: anything has a text and counts as given or
  not.
* `Codec.anyText`, `Codec.anyMap` — for fields whose content is also set
  from documents without conversion.
-/
import AppSynthesis.Duration.Parser
import AppSynthesis.Number.Reading
import AppSynthesis.Schema.TextMap
import AppSynthesis.Value.Text

namespace AppSynthesis

/-- How elements of a type stand in documents. -/
structure Codec (α : Type) where
  /-- The name of the type in messages. -/
  label : String
  /-- The element that a value is read as. -/
  read : Value → Option α
  /-- The value that an element is written as. -/
  write : α → Value
  /-- Equality of elements. -/
  same : α → α → Bool

namespace Codec

/-! ## Text, flags and numbers -/

/-- Text: every value is read as its text. -/
def text : Codec String where
  label := "str"
  read v := some v.text
  write s := .str s
  same a b := a == b

/-- Text that may also be any value: reading converts to text, writing
leaves the value as it is. -/
def anyText : Codec Value where
  label := "str"
  read v := some (.str v.text)
  write v := v
  same a b := a.agrees b

/-- A truth value: every value is read as whether it counts as given. -/
def flag : Codec Bool where
  label := "bool"
  read v := some v.isTrue
  write b := .bool b
  same a b := a == b

/-- An integer: truth values count as zero and one, fractions are cut
off. -/
def count : Codec Int where
  label := "int"
  read
    | .bool b => some (Value.ofTruth b)
    | .int n => some n
    | .float x => x.truncate?
    | .str s => Numeral.integer? 10 s.toList
    | _ => none
  write n := .int n
  same a b := a == b

/-- A duration, which stands in documents as text. -/
def duration : Codec Duration where
  label := "timedelta"
  read
    | .str s => (Duration.parse s).toOption
    | _ => none
  write d := .str d.text
  same a b := a == b

/-! ## Collections -/

/-- A map from text to what `values` reads. Keys are read as their text,
and of two that become the same the later counts. -/
def mapOf {α : Type} (values : Codec α) : Codec (TextMap α) where
  label := "dict[str, " ++ values.label ++ "]"
  read
    | .map _ entries =>
      (entries.mapM fun e => (values.read e.2).map fun x => (e.1.text, x)).map TextMap.ofList
    | _ => none
  write m := .map none (m.map fun e => (.str e.1, values.write e.2))
  same a b := TextMap.same values.same a b

/-- Any value, as it is. -/
def any : Codec Value where
  label := "Any"
  read v := some v
  write v := v
  same a b := a.agrees b

/-- A map from text to text. -/
def textMap : Codec (TextMap String) := mapOf text

/-- A map from text to any values, which are carried as they are. -/
def valueMap : Codec (TextMap Value) := mapOf any

/-- A list: whatever a value runs through is read one by one. -/
def list {α : Type} (items : Codec α) : Codec (List α) where
  label := "list[" ++ items.label ++ "]"
  read v := v.members?.bind fun members => members.mapM items.read
  write xs := .list none (xs.map items.write)
  same a b := a.length == b.length && (a.zip b).all fun p => items.same p.1 p.2

/-- A map from text that may also be any value. Reading gives a map of
what `values` reads; writing gives a collection of its own. -/
def anyMap {α : Type} (values : Codec α) : Codec Value where
  label := (mapOf values).label
  read v := ((mapOf values).read v).map (mapOf values).write
  write v := v.detached
  same a b := a.agrees b

end Codec

end AppSynthesis
