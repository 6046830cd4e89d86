/-
AppSynthesis.Yaml.Printer.Style — how scalars are written.

* `Style.of` — the plainest style that reads back: plain, in single
  quotes, or in double quotes. Text that would be taken for another kind
  of value is not plain, nor is text with a sign of the format in a place
  where it counts. Only double quotes have escapes, and all characters
  beyond ASCII are escaped.
* `Style.write` — writes a scalar in a style. Lines longer than the page
  is wide are continued after a word, unless the scalar is a key.
-/
import AppSynthesis.Text.Quoted
import AppSynthesis.Yaml.Cursor
import AppSynthesis.Yaml.Printer.Page
import AppSynthesis.Yaml.Tag

namespace AppSynthesis.Yaml

/-- How a scalar is written. -/
inductive Style where
  | plain
  | single
  | double
  deriving DecidableEq, Repr

/-! ## What text allows -/

/-- Whether `a` is followed by `b` somewhere. -/
def hasPair (a b : Char → Bool) : List Char → Bool
  | c :: d :: rest => (a c && b d) || hasPair a b (d :: rest)
  | _ => false

/-- Whether a character can only be written as an escape, or in a quoted
scalar at best if it is a line feed. -/
def isSpecial (c : Char) : Bool := c ≠ '\n' && !(' ' ≤ c && c ≤ '~')

/-- Whether text holds a sign of the format in a place where it counts: at
the start, or next to a gap. -/
def hasSign (cs : List Char) : Bool :=
  "---".toList.isPrefixOf cs || "...".toList.isPrefixOf cs
    || (match cs with
      | [] => false
      | c :: rest =>
        "#,[]\x7b\x7d&*!|>'\"%@\x60".toList.contains c
          || ("?:-".toList.contains c && isGap (rest.head?.getD endMark)))
    || hasPair (· = ':') isGap (cs ++ [endMark])
    || hasPair isGap (· = '#') cs

/-- Whether a character is a space or ends a line. -/
def isSpaceOrBreak (c : Char) : Bool := c = ' ' || isBreak c

/-- Whether text has a blank at one of its ends. -/
def hasBlankEnd (cs : List Char) : Bool :=
  cs.head?.any isSpaceOrBreak || cs.getLast?.any isSpaceOrBreak

/-- Whether text can stand in single quotes. -/
def allowsSingle (cs : List Char) : Bool :=
  !cs.any isSpecial && !hasPair isBreak (· = ' ') cs && !hasPair (· = ' ') isBreak cs

/-- Whether text can stand without quotes. -/
def allowsPlain (cs : List Char) : Bool :=
  allowsSingle cs && !hasBlankEnd cs && !cs.any isBreak && !hasSign cs

/-- The style of a scalar of a kind. -/
def Style.of (tag : Tag) (text : String) : Style :=
  let cs := text.toList
  if Tag.resolve text = tag && allowsPlain cs then .plain
  else if allowsSingle cs then .single
  else .double

/-! ## Runs -/

/-- Text as runs of characters that agree on `f`. -/
def runs {α : Type} [DecidableEq α] (f : Char → α) : List Char → List (List Char)
  | [] => []
  | c :: rest =>
    match runs f rest with
    | (d :: run) :: others =>
      if f c = f d then (c :: d :: run) :: others else [c] :: (d :: run) :: others
    | others => [c] :: others

/-- The classes of characters that runs are made of. -/
inductive RunClass where
  | space
  | lineBreak
  | word
  deriving DecidableEq, Repr

/-- The class of a character. -/
def RunClass.of (c : Char) : RunClass :=
  if c = ' ' then .space else if isBreak c then .lineBreak else .word

/-! ## Plain scalars -/

/-- Writes a plain scalar from its runs. A single space beyond the width of
the page becomes a line break. -/
def writePlain (fold : Bool) (column : Nat) (p : Page) (rs : List (List Char)) : Page :=
  rs.foldl (fun p run =>
    if run = [' '] && Page.width < p.column && fold then (p.toColumn column).closed
    else p.put run) p

/-! ## Single quotes -/

/-- Text with each single quote written twice. -/
def doubled (cs : List Char) : List Char :=
  cs.flatMap fun c => if c = '\'' then [c, c] else [c]

/-- Writes line feeds inside single quotes: one more than they are. -/
def putBreaks (p : Page) (column n : Nat) : Page :=
  ((List.replicate (n + 1) ()).foldl (fun p _ => p.newLine) p).toColumn column

/-- Writes runs of text inside single quotes. A single space between words
beyond the width of the page becomes a line break. -/
def writeSingle (fold : Bool) (column : Nat) (first : Bool) (p : Page) :
    List (List Char) → Page
  | [] => p
  | run :: rest =>
    let next := match RunClass.of (run.headD 'x') with
      | .lineBreak => putBreaks p column run.length
      | .space =>
        if run = [' '] && Page.width < p.column && fold && !first && !rest.isEmpty then
          p.toColumn column
        else p.put run
      | .word => p.put (doubled run)
    writeSingle fold column false next rest

/-! ## Double quotes -/

/-- The letter of a one-letter escape. -/
def escapeLetter? : Char → Option Char
  | '\x00' => some '0'
  | '\x07' => some 'a'
  | '\x08' => some 'b'
  | '\t' => some 't'
  | '\n' => some 'n'
  | '\x0b' => some 'v'
  | '\x0c' => some 'f'
  | '\r' => some 'r'
  | '\x1b' => some 'e'
  | '"' => some '"'
  | '\\' => some '\\'
  | '\x85' => some 'N'
  | '\xa0' => some '_'
  | '\u2028' => some 'L'
  | '\u2029' => some 'P'
  | _ => none

/-- A code in upper-case hexadecimal. -/
def code (width : Nat) (c : Char) : List Char := (Text.hex width c.toNat).toUpper.toList

/-- The escape of a character. -/
def escapeOf (c : Char) : List Char :=
  match escapeLetter? c with
  | some l => ['\\', l]
  | none =>
    if c.toNat ≤ 0xff then '\\' :: 'x' :: code 2 c
    else if c.toNat ≤ 0xffff then '\\' :: 'u' :: code 4 c
    else '\\' :: 'U' :: code 8 c

/-- Whether a character is escaped between double quotes. -/
def isEscaped (c : Char) : Bool := c = '"' || c = '\\' || !(' ' ≤ c && c ≤ '~')

/-- Ends a line inside double quotes and goes on in the next; a space that
comes next is escaped. -/
def continueLine (p : Page) (column : Nat) (next : Char) : Page :=
  let p := ((p.put ['\\']).toColumn column).closed
  if next = ' ' then p.put ['\\'] else p

/-- Writes text inside double quotes. `held` are the characters before,
latest first, that are still to be written as they are. Beyond the width
of the page the line is continued before a space or next to an escape, but
not around the first and the last character. -/
def writeDouble (fold : Bool) (column : Nat) (first : Bool) (held : List Char) (p : Page) :
    List Char → Page
  | [] => p.put held.reverse
  | c :: rest =>
    let inside := fold && !first && !rest.isEmpty
    if isEscaped c then
      let p := (p.put held.reverse).put (escapeOf c)
      let p := if inside && Page.width + 1 < p.column then
          continueLine p column (rest.headD endMark)
        else p
      writeDouble fold column false [] p rest
    else if inside && (c = ' ' || held.isEmpty) && Page.width < p.column + held.length then
      writeDouble fold column false [c] (continueLine (p.put held.reverse) column c) rest
    else writeDouble fold column false (c :: held) p rest

/-! ## Scalars -/

/-- Writes a scalar in a style. Lines that continue it begin at a column. -/
def Style.write (s : Style) (fold : Bool) (column : Nat) (p : Page) (text : String) : Page :=
  let cs := text.toList
  match s with
  | .plain =>
    if cs.isEmpty then p
    else
      let p := (if p.spaced then p else p.put [' ']).closed
      writePlain fold column p (runs RunClass.of cs)
  | .single =>
    (writeSingle fold column true (p.sign "'" true false) (runs RunClass.of cs)).sign
      "'" false false
  | .double =>
    (writeDouble fold column true [] (p.sign "\"" true false) cs).sign "\"" false false

end AppSynthesis.Yaml
