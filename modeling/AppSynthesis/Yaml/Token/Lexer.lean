/-
AppSynthesis.Yaml.Token.Lexer — text as a row of tokens.

* `Lexer` — the place reached, the tokens so far, and what decides on the
  meaning of the next sign: how many flow collections are open, how far
  the open block collections are indented, and where a key may begin.
* `SimpleKey` — a place where a key has begun if a colon follows on the
  same line and within 1024 characters. The token for the key is put in
  there once the colon is found.
* `Token.ofText` — all tokens of a text. If it cannot be read on
  somewhere, the last token says so, and what lies before stays readable.
-/
import AppSynthesis.Yaml.Token.Block
import AppSynthesis.Yaml.Token.Plain
import AppSynthesis.Yaml.Token.Property

namespace AppSynthesis.Yaml

/-- A place where a key may have begun. -/
structure SimpleKey where
  /-- How many flow collections are open there. -/
  level : Nat
  /-- How many tokens come before. -/
  number : Nat
  /-- Whether nothing but a key can stand there. -/
  required : Bool
  index : Nat
  line : Nat
  column : Nat
  deriving Repr

/-- The state of the lexer. -/
structure Lexer where
  cursor : Cursor
  /-- The tokens so far, the newest first. -/
  tokens : List Token := []
  /-- How many flow collections are open. -/
  level : Nat := 0
  /-- The column of the innermost block collection, -1 outside of all. -/
  indent : Int := -1
  /-- The columns of the block collections around it, innermost first. -/
  outer : List Int := []
  /-- Whether a key may begin here. -/
  keysAllowed : Bool := true
  /-- Where keys may have begun; one place for each level at most. -/
  keys : List SimpleKey := []
  /-- Whether the text has been read to its end. -/
  finished : Bool := false

namespace Lexer

/-- A step of the lexer. -/
abbrev Step := StateT Lexer (Except Refusal)

/-- Does something at the place reached. -/
def scan {α : Type} (s : Scan α) : Step α := do
  let l ← get
  let (a, cursor) ← s.run l.cursor
  set { l with cursor }
  return a

/-- Adds a token. -/
def emit (t : Token) : Step Unit := modify fun l => { l with tokens := t :: l.tokens }

/-- Adds a token behind the first `number` tokens. -/
def emitAt (number : Nat) (t : Token) : Step Unit :=
  modify fun l =>
    let (after, before) := l.tokens.splitAt (l.tokens.length - number)
    { l with tokens := after ++ t :: before }

/-- Says whether a key may begin here. -/
def allowKeys (allowed : Bool) : Step Unit := modify fun l => { l with keysAllowed := allowed }

/-! ## Indentation -/

/-- Ends the block collections that are indented beyond a column: the
indentation that is left, and how many there were. -/
def unwound (column : Int) : Int → List Int → Int × List Int × Nat
  | indent, [] => (indent, [], 0)
  | indent, next :: outer =>
    if column < indent then
      let (indent, outer, n) := unwound column next outer
      (indent, outer, n + 1)
    else (indent, next :: outer, 0)

/-- Ends the block collections that are indented beyond a column. Inside
flow collections indentation says nothing. -/
def unwind (column : Int) : Step Unit :=
  modify fun l =>
    if l.level ≠ 0 then l
    else
      let (indent, outer, n) := unwound column l.indent l.outer
      { l with indent, outer, tokens := List.replicate n .blockEnd ++ l.tokens }

/-- Begins a block collection at a column, unless one is indented so far
already. Says whether it did. -/
def indentTo (column : Nat) : Step Bool := do
  let l ← get
  if l.indent < column then
    set { l with indent := (column : Int), outer := l.indent :: l.outer }
    return true
  else return false

/-! ## Keys -/

/-- Gives up places where no key has begun. A key that nothing else can
stand for is missed. -/
def forgetKeys (p : SimpleKey → Bool) : Step Unit := do
  let l ← get
  if l.keys.any fun k => p k && k.required then throw .malformed
  set { l with keys := l.keys.filter fun k => !p k }

/-- Gives up the places that are too far away for a key. -/
def forgetDistantKeys : Step Unit := do
  let s := (← get).cursor
  forgetKeys fun k => k.line ≠ s.line || k.index + 1024 < s.index

/-- Gives up the place of this level. -/
def forgetKey : Step Unit := do
  let level := (← get).level
  forgetKeys (·.level = level)

/-- Remembers that a key may begin here. -/
def rememberKey : Step Unit := do
  let l ← get
  if l.keysAllowed then
    forgetKey
    modify fun l => { l with
      keys := ⟨l.level, l.tokens.length, l.level = 0 && l.indent = (l.cursor.column : Int),
        l.cursor.index, l.cursor.line, l.cursor.column⟩ :: l.keys }

/-! ## Signs -/

/-- Takes a sign of `n` characters. -/
def sign (n : Nat) (t : Token) : Step Unit := do
  scan (.skip n)
  emit t

/-- The start or the end of a document. -/
def boundary (t : Token) : Step Unit := do
  unwind (-1)
  forgetKey
  allowKeys false
  sign 3 t

/-- The start of a flow collection. -/
def openFlow (t : Token) : Step Unit := do
  rememberKey
  modify fun l => { l with level := l.level + 1 }
  allowKeys true
  sign 1 t

/-- The end of a flow collection. Where none is open the token is out of
place, which is found out when the tokens are put together. -/
def closeFlow (t : Token) : Step Unit := do
  forgetKey
  modify fun l => { l with level := l.level - 1 }
  allowKeys false
  sign 1 t

/-- The comma between the items of a flow collection. -/
def comma : Step Unit := do
  allowKeys true
  forgetKey
  sign 1 .comma

/-- Begins a block collection at this column, if it is not indented so far
already. A collection can only begin where a key can. -/
def beginBlock (t : Token) : Step Unit := do
  let l ← get
  if l.level = 0 then
    if !l.keysAllowed then throw .malformed
    if ← indentTo l.cursor.column then emit t

/-- The dash before an item of a block sequence. -/
def dash : Step Unit := do
  beginBlock .blockSequence
  allowKeys true
  forgetKey
  sign 1 .dash

/-- The question mark before a key. -/
def explicitKey : Step Unit := do
  beginBlock .blockMapping
  allowKeys ((← get).level = 0)
  forgetKey
  sign 1 .key

/-- The colon before a value. What has begun on the same line turns out to
be a key; otherwise the key was marked, or is missing. -/
def value : Step Unit := do
  let l ← get
  match l.keys.find? (·.level = l.level) with
  | some k =>
    modify fun l => { l with keys := l.keys.filter fun k => k.level ≠ l.level }
    emitAt k.number .key
    if l.level = 0 then
      if ← indentTo k.column then emitAt k.number .blockMapping
    allowKeys false
  | none =>
    beginBlock .blockMapping
    allowKeys (l.level = 0)
    forgetKey
  sign 1 .value

/-- Something that may be a key. -/
def keyLike (s : Scan Token) : Step Unit := do
  rememberKey
  allowKeys false
  emit (← scan s)

/-- A plain scalar. A key may begin after it when line breaks follow. -/
def plain : Step Unit := do
  rememberKey
  let l ← get
  let (text, broken) ← scan (.plain (l.level ≠ 0) (l.indent + 1))
  allowKeys broken
  emit (.scalar text true)

/-- A block scalar. -/
def block : Step Unit := do
  allowKeys true
  forgetKey
  emit (.scalar (← scan (.block (← get).indent)) false)

/-- A directive. -/
def directive : Step Unit := do
  unwind (-1)
  forgetKey
  allowKeys false
  emit (.directive (← scan .directive))

/-- The end of the text. -/
def finish : Step Unit := do
  unwind (-1)
  forgetKey
  modify fun l => { l with finished := true }

/-! ## The next token -/

/-- Takes spaces, comments and line breaks, and says whether there were
line breaks. -/
def blanks : Nat → Scan Bool
  | 0 => return false
  | fuel + 1 => do
    .spaces
    .comment
    match ← Scan.lineBreak with
    | [] => return false
    | _ =>
      discard (blanks fuel)
      return true

/-- Takes what lies before the next token. A byte order mark may stand at
the very start. -/
def toToken : Step Unit := do
  scan do
    if (← get).index = 0 ∧ (← Scan.peek) = '\ufeff' then .skip 1
  let broken ← scan do blanks (← Scan.rounds)
  if broken ∧ (← get).level = 0 then allowKeys true

/-- Whether a plain scalar may begin with `c` before `next`. -/
def beginsPlain (inFlow : Bool) (c next : Char) : Bool :=
  if c = '-' then !isGap next
  else if c = '?' ∨ c = ':' then !inFlow && !isGap next
  else !isGap c && !",[]\x7b\x7d#&*!|>'\"%@\x60".toList.contains c

/-- Takes the next token, with those that indentation gives before it. -/
def next : Step Unit := do
  toToken
  forgetDistantKeys
  unwind ((← get).cursor.column : Int)
  let l ← get
  let c := l.cursor.ahead 0
  let inFlow := l.level ≠ 0
  let apart := isGap (l.cursor.ahead 1)
  if c = endMark then finish
  else if c = '%' ∧ l.cursor.column = 0 then directive
  else if l.cursor.atMarker '-' then boundary .documentStart
  else if l.cursor.atMarker '.' then boundary .documentEnd
  else if c = '[' then openFlow .openSequence
  else if c = '\x7b' then openFlow .openMapping
  else if c = ']' then closeFlow .closeSequence
  else if c = '\x7d' then closeFlow .closeMapping
  else if c = ',' then comma
  else if c = '-' ∧ apart then dash
  else if c = '?' ∧ (inFlow ∨ apart) then explicitKey
  else if c = ':' ∧ (inFlow ∨ apart) then value
  else if c = '*' then keyLike (.alias <$> .reference)
  else if c = '&' then keyLike (.anchor <$> .reference)
  else if c = '!' then keyLike (.tag <$> .tagName)
  else if (c = '|' ∨ c = '>') ∧ !inFlow then block
  else if c = '\'' ∨ c = '"' then keyLike ((.scalar · false) <$> .quoted c)
  else if beginsPlain inFlow c (l.cursor.ahead 1) then plain
  else throw .malformed

/-- The tokens from here on, in at most so many rounds, with those taken
before. -/
def run : Nat → Lexer → List Token
  | 0, l => l.tokens.reverse ++ [.refused .malformed]
  | fuel + 1, l =>
    match (next.run l : Except Refusal (Unit × Lexer)) with
    | .error r => l.tokens.reverse ++ [.refused r]
    | .ok (_, l) => if l.finished then l.tokens.reverse else run fuel l

end Lexer

/-- Whether a text may hold a character: tabs, line breaks and what is
printable, but no other control characters. -/
def isAllowed (c : Char) : Bool :=
  c = '\t' || c = '\n' || c = '\r' || (' ' ≤ c && c ≤ '~') || c = '\x85'
    || ('\xa0' ≤ c && c ≤ '\ufffd') || 0x10000 ≤ c.toNat

/-- The lines of a text with line feeds between them, whatever ended them
before. -/
def unifyBreaks : List Char → List Char
  | [] => []
  | '\r' :: '\n' :: rest => '\n' :: unifyBreaks rest
  | '\r' :: rest => '\n' :: unifyBreaks rest
  | c :: rest => c :: unifyBreaks rest

/-- The tokens of a text. -/
def Token.ofText (text : String) : List Token :=
  let cs := unifyBreaks text.toList
  if cs.all isAllowed then Lexer.run (cs.length + 2) { cursor := { rest := cs } }
  else [.refused .malformed]

end AppSynthesis.Yaml
