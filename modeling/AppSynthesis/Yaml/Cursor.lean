/-
AppSynthesis.Yaml.Cursor — a place in the text of a file, and steps
through it.

* `Refusal` — why the text of a file cannot be read as documents.
* `Cursor` — the characters that are left, with the line and the column
  reached. NUL, which no file may hold, stands for the end.
* `Scan` — a step: it takes characters off the text or refuses it.
  `peek`, `skip`, `takeWhile` and `lineBreak` are the steps that all
  others are made of.
-/

namespace AppSynthesis.Yaml

/-- Why text cannot be read as documents. -/
inductive Refusal where
  /-- The text breaks the rules of the format. -/
  | malformed
  /-- A scalar does not have the form that its tag requires. -/
  | badScalar
  /-- A scalar is empty although its tag requires text. -/
  | emptyScalar
  /-- A scalar is not among those that its tag allows. -/
  | unknownScalar
  /-- A number is out of range. -/
  | outOfRange
  /-- A scalar that should be a time is none. -/
  | noTime
  deriving DecidableEq, Repr

/-! ## Classes of characters -/

/-- What is seen beyond the end of the text. -/
def endMark : Char := '\x00'

/-- Whether a character ends a line. -/
def isBreak (c : Char) : Bool :=
  c = '\n' || c = '\x85' || c = '\u2028' || c = '\u2029'

/-- Whether a character ends a line or the text. -/
def isBreakOrEnd (c : Char) : Bool := isBreak c || c = endMark

/-- Whether a character separates words: a space, a tab, or the end of a
line or of the text. -/
def isGap (c : Char) : Bool := c = ' ' || c = '\t' || isBreakOrEnd c

/-- Whether a character may be part of a name: ASCII letters, digits,
dashes and underscores. -/
def isNameChar (c : Char) : Bool := c.isAlphanum || c = '-' || c = '_'

/-- What a line break reads as: the next-line character is a line feed,
and the two separators stand for themselves. -/
def breakText (c : Char) : Char := if c = '\x85' then '\n' else c

/-! ## Cursors -/

/-- A place in a text. -/
structure Cursor where
  rest : List Char
  /-- How many characters lie before. -/
  index : Nat := 0
  line : Nat := 0
  column : Nat := 0
  deriving Repr

namespace Cursor

/-- The character that lies so many characters ahead. -/
def ahead (s : Cursor) (n : Nat) : Char := (s.rest[n]?).getD endMark

/-- The place after the next character. A byte order mark takes no room on
its line. -/
def next (s : Cursor) : Cursor :=
  match s.rest with
  | [] => s
  | c :: rest =>
    if isBreak c then ⟨rest, s.index + 1, s.line + 1, 0⟩
    else ⟨rest, s.index + 1, s.line, if c = '\ufeff' then s.column else s.column + 1⟩

/-- The place after the next `n` characters. -/
def advance (s : Cursor) : Nat → Cursor
  | 0 => s
  | n + 1 => s.next.advance n

/-- Whether three characters `c` stand here at the start of a line, on
their own. -/
def atMarker (s : Cursor) (c : Char) : Bool :=
  s.column = 0 && [c, c, c].isPrefixOf s.rest && isGap (s.ahead 3)

/-- Whether the line that starts here begins or ends a document. -/
def atBoundary (s : Cursor) : Bool := s.atMarker '-' || s.atMarker '.'

end Cursor

/-! ## Steps -/

/-- A step through the text. -/
abbrev Scan := StateT Cursor (Except Refusal)

namespace Scan

/-- Refuses the text. -/
def refuse {α : Type} (r : Refusal) : Scan α := throw r

/-- The character that lies so many characters ahead. -/
def peekAt (n : Nat) : Scan Char := do return (← get).ahead n

/-- The next character. -/
def peek : Scan Char := peekAt 0

/-- Takes `n` characters. -/
def skip (n : Nat) : Scan Unit := modify (·.advance n)

/-- Takes the characters that satisfy `p`, as far as there are any. -/
def takeWhile (p : Char → Bool) : Scan (List Char) := do
  let cs := (← get).rest.takeWhile p
  skip cs.length
  return cs

/-- Takes spaces. -/
def spaces : Scan Unit := discard (takeWhile (· = ' '))

/-- Takes the rest of the line. -/
def restOfLine : Scan (List Char) := takeWhile fun c => !isBreakOrEnd c

/-- Takes a comment, if one begins here. -/
def comment : Scan Unit := do
  if (← peek) = '#' then discard restOfLine

/-- Takes a line break, if one is here. -/
def lineBreak : Scan (List Char) := do
  let c ← peek
  if isBreak c then
    skip 1
    return [breakText c]
  else return []

/-- Takes a name, which must not be empty. -/
def name : Scan String := do
  let cs ← takeWhile isNameChar
  if cs.isEmpty then refuse .malformed else return String.ofList cs

/-- Takes spaces and a comment up to the end of the line, where nothing
else may stand. -/
def lineEnd : Scan Unit := do
  spaces
  comment
  if isBreakOrEnd (← peek) then discard lineBreak else refuse .malformed

/-- How many rounds a repetition needs at most that takes a character in
each round but the last. -/
def rounds : Scan Nat := do return (← get).rest.length + 1

end Scan

/-! ## Folding -/

/-- What a line break and the empty lines after it read as in folded text:
a single break is a space. -/
def foldBreaks (first : Char) (others : List Char) : List Char :=
  if first ≠ '\n' then first :: others
  else if others.isEmpty then [' '] else others

/-- The breaks among blank characters. -/
def breaksOf (cs : List Char) : List Char := (cs.filter isBreak).map breakText

end AppSynthesis.Yaml
