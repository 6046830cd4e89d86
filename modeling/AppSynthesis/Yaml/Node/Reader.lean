/-
AppSynthesis.Yaml.Node.Reader — tokens put together to trees.

* `Reader` — the tokens that are left, the anchors of the document at
  hand, and what handles stand for.
* `Read.node` — a node: an alias, or properties followed by a scalar or a
  collection. Where properties stand alone, or nothing at all where a node
  is due, the node is an empty scalar.
* `Read.document?` — the tree of the next document, if there is one. Only
  the first document may go without a sign for its start.
-/
import AppSynthesis.Yaml.Node
import AppSynthesis.Yaml.Token.Lexer

namespace AppSynthesis.Yaml

/-- The state of the reader. -/
structure Reader where
  tokens : List Token
  /-- What handles stand for at the start of tags. -/
  handles : List (String × String) := []
  /-- The anchors of the document; a node that is still open has none. -/
  anchors : List (String × Option Node) := []
  /-- The number of the next node. -/
  next : Nat

/-- A step of the reader. -/
abbrev Read := StateT Reader (Except Refusal)

namespace Read

/-! ## Tokens -/

/-- The next token, if any. -/
def look : Read (Option Token) := do
  match (← get).tokens with
  | [] => return none
  | .refused r :: _ => throw r
  | t :: _ => return some t

/-- Takes the next token. -/
def drop : Read Unit := modify fun r => { r with tokens := r.tokens.drop 1 }

/-- Takes the next token, which has to be this one. -/
def expect (t : Token) : Read Unit := do
  if (← look) = some t then drop else throw .malformed

/-- Whether the next token is among these. -/
def isNext (ts : List Token) : Read Bool := do
  match ← look with
  | some t => return ts.contains t
  | none => return false

/-- A number for a node. -/
def number : Read Nat := do
  let n := (← get).next
  modify fun r => { r with next := n + 1 }
  return n

/-- A node where nothing is written. -/
def nothing : Read Node := do return .scalar (← number) .null ""

/-! ## Properties -/

/-- What handles stand for unless directives say otherwise. -/
def standardHandles : List (String × String) := [("!", "!"), ("!!", Tag.space)]

/-- The full name of a tag. -/
def expand (t : TagName) : Read String := do
  match t.handle with
  | none => return t.suffix
  | some handle =>
    match (← get).handles.find? fun h => h.1 = handle with
    | some h => return h.2 ++ t.suffix
    | none => throw .malformed

/-- Takes an anchor, if one is here. -/
def anchor? : Read (Option String) := do
  match ← look with
  | some (.anchor name) => drop; return some name
  | _ => return none

/-- Takes a tag, if one is here. -/
def tag? : Read (Option String) := do
  match ← look with
  | some (.tag t) => drop; return some (← expand t)
  | _ => return none

/-- Takes an anchor and a tag, in either order, as far as they are here. -/
def properties : Read (Option String × Option String) := do
  match ← anchor? with
  | some a => return (some a, ← tag?)
  | none =>
    match ← tag? with
    | some t => return (← anchor?, some t)
    | none => return (none, none)

/-- Declares an anchor, which must be new in its document. -/
def declare (anchor : Option String) : Read Unit := do
  match anchor with
  | none => return ()
  | some a =>
    if (← get).anchors.any (·.1 = a) then throw .malformed
    modify fun r => { r with anchors := (a, none) :: r.anchors }

/-- Lets an anchor refer to a node. -/
def attach (anchor : Option String) (n : Node) : Read Node := do
  match anchor with
  | none => return n
  | some a =>
    modify fun r => { r with
      anchors := r.anchors.map fun e => if e.1 = a then (a, some n) else e }
    return n

/-- The node that an alias refers to. -/
def referent (name : String) : Read Node := do
  match (← get).anchors.find? fun e => e.1 = name with
  | some (_, some n) => return n
  | _ => throw .malformed

/-- The kind of a collection with a tag. -/
def collectionTag (tag : Option String) (usual : Tag) : Tag :=
  match tag with
  | none => usual
  | some name => if name = "!" then usual else Tag.ofName name

/-- The kind of a scalar with a tag. The lone exclamation mark says that
the text is to be taken like a plain scalar. -/
def scalarTag (tag : Option String) (text : String) (plain : Bool) : Tag :=
  match tag with
  | none => if plain then Tag.resolve text else .str
  | some name => if name = "!" then Tag.resolve text else Tag.ofName name

/-! ## Nodes -/

mutual

/-- A node, in at most so many nested steps. Block collections are allowed
in block context only; a sequence may go without indentation of its own
right after a key. -/
def node (inBlock indentless : Bool) : Nat → Read Node
  | 0 => throw .malformed
  | fuel + 1 => do
    if let some (.alias name) ← look then
      drop
      return ← referent name
    let (anchor, tag) ← properties
    declare anchor
    let number ← number
    match ← look with
    | some (.scalar text plain) =>
      drop
      attach anchor (.scalar number (scalarTag tag text plain) text)
    | some .openSequence =>
      drop
      attach anchor (.sequence number (collectionTag tag .sequence) (← flowItems true fuel))
    | some .openMapping =>
      drop
      attach anchor (.mapping number (collectionTag tag .mapping) (← flowPairs true fuel))
    | t =>
      if indentless ∧ t = some .dash then
        attach anchor
          (.sequence number (collectionTag tag .sequence) (← indentlessItems fuel))
      else if inBlock ∧ t = some .blockSequence then
        drop
        attach anchor (.sequence number (collectionTag tag .sequence) (← blockItems fuel))
      else if inBlock ∧ t = some .blockMapping then
        drop
        attach anchor (.mapping number (collectionTag tag .mapping) (← blockPairs fuel))
      else if anchor.isSome ∨ tag.isSome then
        attach anchor (.scalar number (scalarTag tag "" true) "")
      else throw .malformed

/-- A node, unless one of these tokens follows; then there is nothing. -/
def nodeUnless (ends : List Token) (inBlock indentless : Bool) : Nat → Read Node
  | 0 => throw .malformed
  | fuel + 1 => do
    if ← isNext ends then nothing else node inBlock indentless fuel

/-- The items of a block sequence and its end. -/
def blockItems : Nat → Read (List Node)
  | 0 => throw .malformed
  | fuel + 1 => do
    if ← isNext [.blockEnd] then
      drop
      return []
    expect .dash
    let item ← nodeUnless [.dash, .blockEnd] true false fuel
    return item :: (← blockItems fuel)

/-- The items of a sequence without indentation of its own. -/
def indentlessItems : Nat → Read (List Node)
  | 0 => throw .malformed
  | fuel + 1 => do
    if ← isNext [.dash] then
      drop
      let item ← nodeUnless [.dash, .key, .value, .blockEnd] true false fuel
      return item :: (← indentlessItems fuel)
    else return []

/-- The pairs of a block mapping and its end. -/
def blockPairs : Nat → Read (List (Node × Node))
  | 0 => throw .malformed
  | fuel + 1 => do
    if ← isNext [.blockEnd] then
      drop
      return []
    expect .key
    let ends := [.key, .value, .blockEnd]
    let k ← nodeUnless ends true true fuel
    let v ← if ← isNext [.value] then do
        drop
        nodeUnless ends true true fuel
      else nothing
    return (k, v) :: (← blockPairs fuel)

/-- A pair of a flow collection, whose sign for a key has been taken. -/
def flowPair (close : Token) : Nat → Read (Node × Node)
  | 0 => throw .malformed
  | fuel + 1 => do
    let k ← nodeUnless [.value, .comma, close] false false fuel
    let v ← if ← isNext [.value] then do
        drop
        nodeUnless [.comma, close] false false fuel
      else nothing
    return (k, v)

/-- The items of a flow sequence and its end. A pair among them is a
mapping of its own. -/
def flowItems (first : Bool) : Nat → Read (List Node)
  | 0 => throw .malformed
  | fuel + 1 => do
    if !(← isNext [.closeSequence]) ∧ !first then expect .comma
    if ← isNext [.closeSequence] then
      drop
      return []
    let item ← if ← isNext [.key] then do
        drop
        let number ← number
        pure (Node.mapping number .mapping [← flowPair .closeSequence fuel])
      else node false false fuel
    return item :: (← flowItems false fuel)

/-- The pairs of a flow mapping and its end. A lone node is a key. -/
def flowPairs (first : Bool) : Nat → Read (List (Node × Node))
  | 0 => throw .malformed
  | fuel + 1 => do
    if !(← isNext [.closeMapping]) ∧ !first then expect .comma
    if ← isNext [.closeMapping] then
      drop
      return []
    let pair ← if ← isNext [.key] then do
        drop
        flowPair .closeMapping fuel
      else do
        let k ← node false false fuel
        pure (k, ← nothing)
    return pair :: (← flowPairs false fuel)

end

/-- A node in block context. A step takes a token or leads to one that
does. -/
def blockNode : Read Node := do
  node true false (3 * (← get).tokens.length + 3)

/-! ## Documents -/

/-- Takes the directives before a document: the version, which has to be a
first one, and the meaning of handles, each at most once. -/
def directives (version : Bool) (handles : List (String × String)) :
    Nat → Read (List (String × String))
  | 0 => throw .malformed
  | fuel + 1 => do
    match ← look with
    | some (.directive (.version major)) =>
      if version ∨ major ≠ 1 then throw .malformed
      drop
      directives true handles fuel
    | some (.directive (.handle name expansion)) =>
      if handles.any (·.1 = name) then throw .malformed
      drop
      directives version ((name, expansion) :: handles) fuel
    | some (.directive .reserved) =>
      drop
      directives version handles fuel
    | _ => return handles

/-- Takes signs for the end of documents. -/
def documentEnds : Nat → Read Unit
  | 0 => return ()
  | fuel + 1 => do
    if ← isNext [.documentEnd] then
      drop
      documentEnds fuel

/-- Whether no node of a document can begin here. -/
def atDocumentEdge : Read Bool := do
  match ← look with
  | none => return true
  | some (.directive _) => return true
  | some t => return t = .documentStart || t = .documentEnd

/-- Takes one sign for the end of a document, if one is here. -/
def finish (n : Node) : Read (Option Node) := do
  if ← isNext [.documentEnd] then drop
  return some n

/-- A document after the sign for its start. -/
def explicitDocument : Read (Option Node) := do
  let rounds := (← get).tokens.length + 1
  documentEnds rounds
  match ← look with
  | none => return none
  | some _ =>
    let handles ← directives false [] rounds
    modify fun r => { r with handles := handles ++ standardHandles, anchors := [] }
    expect .documentStart
    finish (← if ← atDocumentEdge then nothing else blockNode)

/-- The tree of the next document, if there is one. -/
def document? (first : Bool) : Read (Option Node) := do
  let implicit ← if first then do
      match ← look with
      | some .documentEnd => pure true
      | _ => pure (!(← atDocumentEdge))
    else pure false
  if implicit then
    modify fun r => { r with handles := standardHandles, anchors := [] }
    finish (← blockNode)
  else explicitDocument

end Read

end AppSynthesis.Yaml
