/-
AppSynthesis.Yaml.Token.Block — scalars as blocks of lines.

* `BlockStyle` — how the lines are joined, what is done with line breaks
  at the end, and how far the lines are indented if that is said.
* `Scan.block` — a block scalar from its sign on. Without a word on the
  indentation, the first line that is not empty sets it.
-/
import AppSynthesis.Yaml.Cursor

namespace AppSynthesis.Yaml

/-- What becomes of the line breaks at the end of a block. -/
inductive Chomping where
  /-- None is kept. -/
  | strip
  /-- The first is kept. -/
  | clip
  /-- All are kept. -/
  | keep
  deriving DecidableEq, Repr

/-- How a block is to be read. -/
structure BlockStyle where
  folded : Bool
  chomping : Chomping
  indentation : Option Nat
  deriving DecidableEq, Repr

namespace Scan

/-! ## The first line -/

/-- Takes a chomping sign, if one is here. -/
def chomping? : Scan (Option Chomping) := do
  match ← peek with
  | '+' => skip 1; return some .keep
  | '-' => skip 1; return some .strip
  | _ => return none

/-- Takes the digit that says how far lines are indented, if one is
here. -/
def indentation? : Scan (Option Nat) := do
  let c ← peek
  if '1' ≤ c ∧ c ≤ '9' then
    skip 1
    return some (c.toNat - '0'.toNat)
  else if c = '0' then refuse .malformed
  else return none

/-- The rest of the first line of a block: the two signs in either order,
and perhaps a comment. -/
def blockStyle (folded : Bool) : Scan BlockStyle := do
  let before ← chomping?
  let indentation ← indentation?
  let after ← if before.isNone ∧ indentation.isSome then chomping? else pure none
  let c ← peek
  if c ≠ ' ' ∧ !isBreakOrEnd c then refuse .malformed
  lineEnd
  return ⟨folded, (before <|> after).getD .clip, indentation⟩

/-! ## The lines -/

/-- Takes spaces up to a column. -/
def spacesTo (column : Nat) : Scan Unit := do
  let s ← get
  skip ((s.rest.take (column - s.column)).takeWhile (· = ' ')).length

/-- Takes empty lines of a block whose lines begin at a column, and the
indentation of the next. -/
def emptyLines (column : Nat) : Nat → Scan (List Char)
  | 0 => return []
  | fuel + 1 => do
    spacesTo column
    match ← lineBreak with
    | [] => return []
    | b :: _ => return b :: (← emptyLines column fuel)

/-- The rightmost column that the spaces of empty lines reach. -/
def reach (column : Nat) (cs : List Char) : Nat :=
  (cs.foldl (fun (here, far) c => if c = ' ' then (here + 1, max far (here + 1)) else (0, far))
    (column, 0)).2

/-- Takes the empty lines before the first line of a block, and finds the
column at which its lines begin. -/
def leadingLines : Scan (List Char × Nat) := do
  let column := (← get).column
  let run ← takeWhile fun c => c = ' ' || isBreak c
  return (breaksOf run, reach column run)

/-- Whether a line of the block begins here. -/
def atLine (column : Nat) : Scan Bool := do
  let s ← get
  return s.column = column && !s.rest.isEmpty

/-- The text of a block, the line break after it, and the empty lines that
follow. -/
structure BlockText where
  text : List Char
  lineBreak : List Char
  emptyLines : List Char

/-- What a line break inside a block reads as. Folding joins two lines
unless one of them begins with a blank. -/
def joint (folded beginsWithWord nextBeginsWithWord : Bool) (lineBreak emptyLines : List Char) :
    List Char :=
  if folded && lineBreak = ['\n'] && beginsWithWord && nextBeginsWithWord then
    if emptyLines.isEmpty then [' '] else []
  else lineBreak

/-- Whether a word begins here, and no blank. -/
def atWord : Scan Bool := do
  let c ← peek
  return c ≠ ' ' && c ≠ '\t'

/-- The lines of a block from here on. -/
def lines (folded : Bool) (column : Nat) (before : List Char) : Nat → Scan BlockText
  | 0 => refuse .malformed
  | fuel + 1 => do
    let beginsWithWord ← atWord
    let line ← restOfLine
    let b ← lineBreak
    let empty ← emptyLines column (← rounds)
    if ← atLine column then
      let gap := joint folded beginsWithWord (← atWord) b empty
      let others ← lines folded column empty fuel
      return { others with text := before ++ line ++ gap ++ others.text }
    else return ⟨before ++ line, b, empty⟩

/-- The text of a block with what chomping leaves at its end. -/
def BlockText.chomped (t : BlockText) : Chomping → List Char
  | .strip => t.text
  | .clip => t.text ++ t.lineBreak
  | .keep => t.text ++ t.lineBreak ++ t.emptyLines

/-- A block scalar, whose sign is here, inside a collection that is
indented by `indent`. -/
def block (indent : Int) : Scan String := do
  let folded := (← peek) = '>'
  skip 1
  let style ← blockStyle folded
  let least := max 1 (indent + 1).toNat
  let (before, column) ← match style.indentation with
    | some n => do
      let column := least + n - 1
      pure (← emptyLines column (← rounds), column)
    | none => do
      let (before, column) ← leadingLines
      pure (before, max least column)
  let text ← if ← atLine column then lines folded column before (← rounds)
    else pure ⟨[], [], before⟩
  return String.ofList (text.chomped style.chomping)

end Scan

end AppSynthesis.Yaml
