/-
AppSynthesis.Yaml.Token.Plain — scalars without quotes.

* `Scan.plain` — a plain scalar, and whether line breaks follow it. It
  ends at a comment, at a colon before a gap, at the brackets and commas
  of a flow collection, and at a line that is not indented enough.
-/
import AppSynthesis.Yaml.Cursor

namespace AppSynthesis.Yaml.Scan

/-- Whether a character ends a plain scalar inside a flow collection. -/
def isFlowSign (c : Char) : Bool := ",?[]\x7b\x7d".toList.contains c

/-- Whether a colon before this character ends a plain scalar. -/
def endsAfterColon (inFlow : Bool) (c : Char) : Bool :=
  isGap c || (inFlow && ",[]\x7b\x7d".toList.contains c)

/-- The length of the word that text begins with. -/
def wordLength (inFlow : Bool) : List Char → Nat
  | [] => 0
  | c :: rest =>
    if isGap c || (c = ':' && endsAfterColon inFlow (rest.head?.getD endMark))
        || (inFlow && isFlowSign c) then 0
    else wordLength inFlow rest + 1

/-- Takes a word. -/
def word (inFlow : Bool) : Scan (List Char) := do
  let rest := (← get).rest
  let n := wordLength inFlow rest
  skip n
  return rest.take n

/-- What the blanks between two words read as, and whether there are line
breaks among them. Before the start or the end of a document there is no
next word. -/
def wordGap : Scan (List Char × Bool) := do
  let blanks ← takeWhile (· = ' ')
  match ← lineBreak with
  | [] => return (blanks, false)
  | first :: _ =>
    let run ← takeWhile fun c => c = ' ' || isBreak c
    if (← get).atBoundary then return ([], true)
    else return (foldBreaks first (breaksOf run), true)

/-- The words of a plain scalar from here on, the blanks before them, and
whether line breaks follow them. -/
def words (inFlow : Bool) (indent : Int) (gap : List Char) (broken : Bool) :
    Nat → Scan (List Char × Bool)
  | 0 => refuse .malformed
  | fuel + 1 => do
    if (← peek) = '#' then return ([], broken)
    let w ← word inFlow
    if w.isEmpty then return ([], broken)
    let (next, crossed) ← wordGap
    if next.isEmpty ∨ (← peek) = '#' ∨ (!inFlow ∧ ((← get).column : Int) < indent) then
      return (gap ++ w, crossed)
    else
      let (others, crossed) ← words inFlow indent next crossed fuel
      return (gap ++ w ++ others, crossed)

/-- A plain scalar, and whether line breaks follow it. The lines after the
first are indented by `indent` at least. -/
def plain (inFlow : Bool) (indent : Int) : Scan (String × Bool) := do
  let (cs, broken) ← words inFlow indent [] false (← rounds)
  return (String.ofList cs, broken)

end AppSynthesis.Yaml.Scan
