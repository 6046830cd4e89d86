/-
AppSynthesis.Yaml.Printer — values written as documents.

* `sharedOrigins` — the places of the source that several collections of a
  value were read from; each is written once, with an anchor, and as an
  alias from then on.
* `Value.yaml` — the document of a value: a line that begins it, and the
  value in block style, two columns for each level. Items of a sequence
  under a key stand in the column of the key. Empty collections are
  written in brackets.
-/
import AppSynthesis.Value.Basic
import AppSynthesis.Yaml.Printer.Style

namespace AppSynthesis.Yaml

/-! ## Shared values -/

/-- The place that a value was read from, for kinds of values of which two
can be told apart although they are equal. -/
def originOf : Value → Option Nat
  | .stamp origin _ => origin
  | .list origin _ => origin
  | .map origin _ => origin
  | _ => none

/-- The places met in a value: all of them, and those met again, the latest
first. -/
structure Met where
  once : List Nat := []
  again : List Nat := []

/-- Whether the value at this place is known and need not be entered. -/
def Met.knows (m : Met) (origin : Option Nat) : Bool :=
  match origin with
  | none => false
  | some n => m.once.contains n

/-- The places met, with this one. -/
def Met.meet (m : Met) (origin : Option Nat) : Met :=
  match origin with
  | none => m
  | some n =>
    if !m.once.contains n then { m with once := n :: m.once }
    else if m.again.contains n then m
    else { m with again := n :: m.again }

mutual

/-- The places met in a value and before. -/
def meetValue (m : Met) : Value → Met
  | .list origin items =>
    if m.knows origin then m.meet origin else meetItems (m.meet origin) items
  | .map origin entries =>
    if m.knows origin then m.meet origin else meetEntries (m.meet origin) entries
  | .stamp origin _ => m.meet origin
  | _ => m

/-- The places met in items and before. -/
def meetItems (m : Met) : List Value → Met
  | [] => m
  | v :: rest => meetItems (meetValue m v) rest

/-- The places met in entries and before. -/
def meetEntries (m : Met) : Entries → Met
  | [] => m
  | (k, v) :: rest => meetEntries (meetValue (meetValue m k) v) rest

end

/-- The places that several values were read from, in the order in which
that shows. -/
def sharedOrigins (v : Value) : List Nat := (meetValue {} v).again.reverse

/-- The name of the anchor of a shared place. -/
def anchorName (shared : List Nat) (origin : Option Nat) : Option String :=
  match origin with
  | none => none
  | some n =>
    (shared.findIdx? (· = n)).map fun i =>
      let digits := Numeral.ofNat (i + 1)
      "id" ++ String.ofList (List.replicate (3 - digits.length) '0') ++ digits

/-! ## Scalars -/

/-- The text of a number with a point. The exponent never follows an
integer. -/
def realText (x : Binary64) : String :=
  match x with
  | .nan => ".nan"
  | .infinite s => if s then "-.inf" else ".inf"
  | x =>
    let cs := x.text.toList
    if cs.contains '.' then x.text
    else
      let (digits, exponent) := cs.span (· ≠ 'e')
      String.ofList (digits ++ (if exponent.isEmpty then [] else ['.', '0']) ++ exponent)

/-- The kind and the text of a scalar. -/
def scalarText : Value → Option (Tag × String)
  | .null => some (.null, "null")
  | .bool b => some (.bool, if b then "true" else "false")
  | .int n => some (.int, Numeral.ofInt n)
  | .float x => some (.float, realText x)
  | .str s => some (.str, s)
  | .stamp _ t => some (.time, t.text " ")
  | _ => none

/-- The length of a tag in its short spelling. -/
def tagLength (t : Tag) : Nat :=
  match Tag.names.find? fun e => e.2 = t with
  | some e => e.1.length + 2
  | none => 0

/-- The length from which on a key is written with a sign of its own. -/
def longKey : Nat := 128

/-! ## Values -/

/-- What has been written, and the shared places that were written with
it. -/
structure Output where
  page : Page := {}
  written : List Nat := []

/-- Where a value stands: after which column its members are indented, and
whether it is the key or the value of a map. -/
structure Place where
  column : Option Nat
  inMap : Bool
  isKey : Bool

namespace Output

/-- Changes the page. -/
def onPage (o : Output) (f : Page → Page) : Output := { o with page := f o.page }

/-- Whether the value at a place of the source has been written. -/
def has (o : Output) (origin : Option Nat) : Bool :=
  match origin with
  | none => false
  | some n => o.written.contains n

/-- Writes the anchor of a shared value. -/
def anchor (o : Output) (name : Option String) (origin : Option Nat) : Output :=
  match name, origin with
  | some name, some n =>
    { page := o.page.sign ("&" ++ name) true false, written := n :: o.written }
  | _, _ => o

/-- Whether a key can stand on one line with its value. Its tag and its
anchor count, whether they are written or not. -/
def isSimpleKey (o : Output) (shared : List Nat) (key : Value) : Bool :=
  let anchorLength := ((anchorName shared (originOf key)).map String.length).getD 0
  match scalarText key with
  | none => true
  | some (tag, text) =>
    (anchorLength ≠ 0 && o.has (originOf key))
      || (anchorLength + tagLength tag + text.length < longKey && text ≠ ""
        && !text.toList.any isBreak)

/-- Writes the text of a scalar. -/
def scalar (o : Output) (place : Place) (tag : Tag) (text : String) : Output :=
  o.onPage fun p =>
    (Style.of tag text).write (!place.isKey) ((place.column.map (· + 2)).getD 2) p text

mutual

/-- Writes a value. -/
def value (shared : List Nat) (place : Place) (o : Output) (v : Value) : Output :=
  let name := anchorName shared (originOf v)
  if name.isSome && o.has (originOf v) then
    o.onPage fun p => p.sign ("*" ++ name.getD "") true false
  else
    let o := o.anchor name (originOf v)
    match v with
    | .list _ [] => o.onPage fun p => p.sign "[]" true false
    | .list _ (item :: items) =>
      let column := match place.column with
        | none => 0
        | some c => if place.inMap && !o.page.fresh then c else c + 2
      itemsFrom shared column o (item :: items)
    | .map _ [] => o.onPage fun p => p.sign "\x7b\x7d" true false
    | .map _ (entry :: entries) =>
      entriesFrom shared ((place.column.map (· + 2)).getD 0) o (entry :: entries)
    | v =>
      match scalarText v with
      | some (tag, text) => o.scalar place tag text
      | none => o

/-- Writes items, each behind a dash in a column. -/
def itemsFrom (shared : List Nat) (column : Nat) (o : Output) : List Value → Output
  | [] => o
  | v :: rest =>
    let o := o.onPage fun p => (p.toColumn column).sign "-" true true
    itemsFrom shared column (value shared ⟨some column, false, false⟩ o v) rest

/-- Writes entries from a column on. A key that is empty, long or of
several lines has a sign before it. -/
def entriesFrom (shared : List Nat) (column : Nat) (o : Output) : Entries → Output
  | [] => o
  | (k, v) :: rest =>
    let o := o.onPage fun p => p.toColumn column
    let o :=
      if o.isSimpleKey shared k then
        (value shared ⟨some column, true, true⟩ o k).onPage fun p => p.sign ":" false false
      else
        let o := o.onPage fun p => p.sign "?" true true
        (value shared ⟨some column, true, false⟩ o k).onPage fun p =>
          (p.toColumn column).sign ":" true true
    entriesFrom shared column (value shared ⟨some column, true, false⟩ o v) rest

end

end Output

end Yaml

/-- The document of a value. -/
def Value.yaml (v : Value) : String :=
  let start : Yaml.Output := { page := ({} : Yaml.Page).sign "---" true false }
  let o := start.value (Yaml.sharedOrigins v) ⟨none, false, false⟩ v
  (o.page.toColumn 0).text

end AppSynthesis
