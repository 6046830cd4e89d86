/-
AppSynthesis.Yaml.Token — the signs that documents are written with.

* `Token` — a sign, a name or a scalar. Block structure is given by signs
  too: where the indentation says that a collection begins or ends, there
  is a token for it.
* `Directive` — a line before a document that says how to read it.
-/
import AppSynthesis.Yaml.Cursor

namespace AppSynthesis.Yaml

/-- A line before a document that says how to read it. -/
inductive Directive where
  /-- The version of the format; only the part before the point counts. -/
  | version (major : Nat)
  /-- What a handle stands for at the start of tags. -/
  | handle (name expansion : String)
  /-- Any other directive; it says nothing. -/
  | reserved
  deriving DecidableEq, Repr

/-- A tag as it is written: a handle, unless it is written out, and the
rest. -/
structure TagName where
  handle : Option String
  suffix : String
  deriving DecidableEq, Repr

/-- A sign of the format. -/
inductive Token where
  | directive (d : Directive)
  | documentStart
  | documentEnd
  | blockSequence
  | blockMapping
  | blockEnd
  | openSequence
  | closeSequence
  | openMapping
  | closeMapping
  | dash
  | comma
  | key
  | value
  | alias (name : String)
  | anchor (name : String)
  | tag (t : TagName)
  | scalar (text : String) (plain : Bool)
  /-- Here the text cannot be read on. -/
  | refused (r : Refusal)
  deriving DecidableEq, Repr

end AppSynthesis.Yaml
