/-
AppSynthesis.Yaml.Node — documents as trees.

* `Node` — a scalar, a sequence or a mapping, with its kind. A node that
  is reached by an alias stands in the tree once more; its number tells
  that it is the same one.
-/
import AppSynthesis.Yaml.Tag

namespace AppSynthesis.Yaml

/-- A node of a document. The number belongs to the place in the text that
it was read from. -/
inductive Node where
  | scalar (number : Nat) (tag : Tag) (text : String)
  | sequence (number : Nat) (tag : Tag) (items : List Node)
  | mapping (number : Nat) (tag : Tag) (pairs : List (Node × Node))
  deriving Repr, Inhabited

namespace Node

/-- The kind of a node. -/
def tag : Node → Tag
  | .scalar _ t _ => t
  | .sequence _ t _ => t
  | .mapping _ t _ => t

end Node

end AppSynthesis.Yaml
