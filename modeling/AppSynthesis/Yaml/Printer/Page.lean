/-
AppSynthesis.Yaml.Printer.Page — text in the making, and the state of its
last line.

* `Page` — the text so far, the column reached, whether what comes next
  needs no space before it, and whether the last line holds nothing but
  signs that a collection may follow on the same line.
* `Page.put`, `Page.sign`, `Page.toColumn` — writing text, a sign, and the
  indentation of a line.
-/

namespace AppSynthesis.Yaml

/-- Text in the making. -/
structure Page where
  text : String := ""
  column : Nat := 0
  /-- Whether the text ends in what needs no space after it. -/
  spaced : Bool := true
  /-- Whether the last line may still begin a collection. -/
  fresh : Bool := true
  deriving DecidableEq, Repr

namespace Page

/-- The column beyond which long scalars are continued on the next line. -/
def width : Nat := 80

/-- Writes text that goes on in the same line. -/
def put (p : Page) (cs : List Char) : Page :=
  { p with text := p.text ++ String.ofList cs, column := p.column + cs.length }

/-- Begins a new line. -/
def newLine (p : Page) : Page := ⟨p.text.push '\n', 0, true, true⟩

/-- Says that what comes next needs a space before it and is no longer at
the beginning of its line. -/
def closed (p : Page) : Page := { p with spaced := false, fresh := false }

/-- Goes to a column for the beginning of an item, on a new line unless the
last one is still open. -/
def toColumn (p : Page) (column : Nat) : Page :=
  let p := if !p.fresh || column < p.column || (p.column = column && !p.spaced) then p.newLine
    else p
  if p.column < column then
    { p.put (List.replicate (column - p.column) ' ') with spaced := true }
  else p

/-- Writes a sign. It has a space before it if `apart`, and the last line
stays open after it if `opening`. -/
def sign (p : Page) (s : String) (apart opening : Bool) : Page :=
  let p := p.put ((if apart && !p.spaced then [' '] else []) ++ s.toList)
  { p with spaced := false, fresh := p.fresh && opening }

end Page

end AppSynthesis.Yaml
