/-
AppSynthesis.Schema.TextMap — maps from text to something, in the order in
which their keys were first given.

* `TextMap.insert` — a key that is there keeps its place and gets the new
  value; a new one comes last.
* `TextMap.same` — equality that ignores the order.
-/

namespace AppSynthesis

/-- A map from text, as its entries in order. -/
abbrev TextMap (α : Type) := List (String × α)

namespace TextMap

/-- The value under a key. -/
def get? {α : Type} (m : TextMap α) (key : String) : Option α :=
  (m.find? fun e => e.1 = key).map (·.2)

/-- The map with `key` mapped to `value`. -/
def insert {α : Type} (m : TextMap α) (key : String) (value : α) : TextMap α :=
  match m with
  | [] => [(key, value)]
  | (k, v) :: rest => if k = key then (k, value) :: rest else (k, v) :: insert rest key value

/-- The map that results from inserting each pair in turn. -/
def ofList {α : Type} (pairs : List (String × α)) : TextMap α :=
  pairs.foldl (fun m p => insert m p.1 p.2) []

/-- Whether two maps have the same keys, with equal values under `eq`. -/
def same {α : Type} (eq : α → α → Bool) (m n : TextMap α) : Bool :=
  m.length == n.length && m.all fun e =>
    match get? n e.1 with
    | none => false
    | some v => eq e.2 v

end TextMap

end AppSynthesis
