/-
AppSynthesis.Yaml.Document — the values of documents.

* `Node.value` — the value of a tree. The pairs that a merge key brings in
  come before the pairs of the map itself, which may replace them; of two
  pairs with equal keys the later counts, at the place of the first. The
  values of a document are made level by level, so of several faults the
  one nearest to the root is found.
* `documents` — the values of all documents of a text, less those that do
  not count as given.
-/
import AppSynthesis.Yaml.Node.Reader
import AppSynthesis.Yaml.Scalar

namespace AppSynthesis.Yaml

/-! ## Faults by level -/

/-- A refusal and the level at which it is met. -/
structure RefusalAt where
  level : Nat
  refusal : Refusal
  deriving DecidableEq, Repr

/-- A value, or the first fault on the way to it. -/
abbrev Leveled (α : Type) := Except RefusalAt α

/-- Two values. Of two faults the one at the lower level counts, and at the
same level the left one. -/
def both {α β : Type} : Leveled α → Leveled β → Leveled (α × β)
  | .ok a, .ok b => .ok (a, b)
  | .ok _, .error f => .error f
  | .error e, .ok _ => .error e
  | .error e, .error f => .error (if f.level < e.level then f else e)

/-- A row of values. -/
def cons {α : Type} (head : Leveled α) (tail : Leveled (List α)) : Leveled (List α) :=
  (fun p => p.1 :: p.2) <$> both head tail

/-! ## Merging -/

mutual

/-- Whether what merge keys bring in are mappings or sequences of
mappings. -/
def Node.mergesMappings : List (Node × Node) → Bool
  | [] => true
  | (k, v) :: rest => (k.tag ≠ .merge || v.isMergeable) && mergesMappings rest

/-- Whether a node can be merged into a mapping. -/
def Node.isMergeable : Node → Bool
  | .scalar _ _ _ => false
  | .sequence _ _ items => Node.areMergeable items
  | .mapping _ _ pairs => Node.mergesMappings pairs

/-- Whether all of these are mappings that can be merged. -/
def Node.areMergeable : List Node → Bool
  | [] => true
  | .mapping _ _ pairs :: rest => Node.mergesMappings pairs && areMergeable rest
  | _ :: _ => false

end

/-! ## Values of trees -/

/-- The text that stands in for a whole mapping. -/
def Node.standIn? : List (Node × Node) → Option String
  | [] => none
  | (k, v) :: rest =>
    if k.tag = .standIn then
      match v with
      | .scalar _ _ text => some text
      | .sequence _ _ _ => none
      | .mapping _ _ pairs => Node.standIn? pairs
    else Node.standIn? rest

/-- The value of a key, which has to be atomic. Whatever is at fault inside
a collection, it is no key. -/
def asKey (level : Nat) (key : Leveled Value) : Leveled Value :=
  match key with
  | .ok v => if v.isAtomic then .ok v else .error ⟨level, .malformed⟩
  | .error f => if f.level = level then .error f else .error ⟨level, .malformed⟩

/-- The level at which a node of a kind is found to be something else: that
of its members for kinds of collections. -/
def Tag.levelBelow (t : Tag) (level : Nat) : Nat :=
  match t with
  | .sequence => level + 1
  | .mapping => level + 1
  | _ => level

mutual

/-- The value of a node that is met at a level. The members of a collection
are met at the next. -/
def Node.value (level : Nat) : Node → Leveled Value
  | .scalar number tag text =>
    (tag.valueOf (some number) text).mapError fun r => ⟨tag.levelBelow level, r⟩
  | .sequence number tag items =>
    match tag with
    | .sequence => .list (some number) <$> Node.values (level + 1) items
    | tag => .error ⟨tag.levelBelow level, .malformed⟩
  | .mapping number tag pairs =>
    match tag with
    | .mapping =>
      if Node.mergesMappings pairs then
        (fun p => .map (some number) (Entries.ofList (p.1 ++ p.2)))
          <$> Node.entries (level + 1) pairs
      else .error ⟨level + 1, .malformed⟩
    | tag =>
      match Node.standIn? pairs with
      | some text =>
        (tag.valueOf (some number) text).mapError fun r => ⟨tag.levelBelow level, r⟩
      | none => .error ⟨tag.levelBelow level, .malformed⟩

/-- The values of nodes. -/
def Node.values (level : Nat) : List Node → Leveled (List Value)
  | [] => .ok []
  | n :: rest => cons (n.value level) (Node.values level rest)

/-- The entries of pairs: those that merge keys bring in, and the pairs'
own. -/
def Node.entries (level : Nat) : List (Node × Node) → Leveled (Entries × Entries)
  | [] => .ok ([], [])
  | (k, v) :: rest =>
    if k.tag = .merge then
      (fun p => (p.1 ++ p.2.1, p.2.2)) <$> both (v.merged level) (Node.entries level rest)
    else
      let key : Leveled Value := match k with
        | .scalar _ .standIn text => .ok (.str text)
        | _ => asKey level (k.value level)
      (fun p => (p.2.1, p.1 :: p.2.2))
        <$> both (both key (v.value level)) (Node.entries level rest)

/-- The entries that a node brings into a mapping; an earlier one of
several mappings may replace what a later one brings. -/
def Node.merged (level : Nat) : Node → Leveled Entries
  | .scalar _ _ _ => .ok []
  | .sequence _ _ items => Node.mergedAll level items
  | .mapping _ _ pairs => (fun p => p.1 ++ p.2) <$> Node.entries level pairs

/-- The entries that several nodes bring into a mapping, the last one's
first. -/
def Node.mergedAll (level : Nat) : List Node → Leveled Entries
  | [] => .ok []
  | n :: rest => (fun p => p.2 ++ p.1) <$> both (n.merged level) (Node.mergedAll level rest)

end

/-! ## Texts -/

/-- The values of the documents from here on, in at most so many
documents. -/
def readAll (first : Bool) : Nat → Reader → Except Refusal (List Value × Nat)
  | 0, _ => .error .malformed
  | fuel + 1, r => do
    match ← (Read.document? first).run r with
    | (none, r) => return ([], r.next)
    | (some n, r) =>
      let v ← (n.value 0).mapError RefusalAt.refusal
      let (others, next) ← readAll false fuel r
      return (v :: others, next)

/-- The values of the documents of a text that count as given. Their
collections are numbered from `next` on; the second result is the number
that is free afterwards. -/
def documents (text : String) (next : Nat) : Except Refusal (List Value × Nat) := do
  let tokens := Token.ofText text
  let (values, next) ← readAll true (tokens.length + 2) { tokens, next }
  return (values.filter Value.isTrue, next)

end AppSynthesis.Yaml
