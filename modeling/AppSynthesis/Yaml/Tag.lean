/-
AppSynthesis.Yaml.Tag — what kind of value a node is.

* `Tag` — the kinds that documents may use; all others are `unknown`.
* `Tag.resolve` — the kind of a plain scalar that is written without a
  tag: a truth value, a number, null, a time, one of the two signs with a
  meaning in maps, or text. Numbers may be grouped by underscores, and
  written in base sixty with colons.
-/
import AppSynthesis.Calendar
import AppSynthesis.Text.Digit

namespace AppSynthesis.Yaml

/-- The kind of a node. -/
inductive Tag where
  | null
  | bool
  | int
  | float
  | str
  | time
  | sequence
  | mapping
  /-- The key that merges other maps into its map. -/
  | merge
  /-- The key of the scalar that stands in for its map. -/
  | standIn
  | unknown
  deriving DecidableEq, Repr, Inhabited

namespace Tag

/-! ## Names -/

/-- The names of tags in the namespace of the format. -/
def names : List (String × Tag) :=
  [("null", null), ("bool", bool), ("int", int), ("float", float), ("str", str),
    ("timestamp", time), ("seq", sequence), ("map", mapping), ("merge", merge),
    ("value", standIn)]

/-- The namespace of the format. -/
def space : String := "tag:yaml.org,2002:"

/-- The kind that a full tag names. -/
def ofName (name : String) : Tag :=
  ((names.find? fun e => space ++ e.1 = name).map (·.2)).getD unknown

/-! ## Forms of plain scalars -/

/-- The words for truth values in lower case. -/
def truthWords : List (String × Bool) :=
  [("yes", true), ("no", false), ("true", true), ("false", false), ("on", true), ("off", false)]

/-- A word with its first letter in upper case. -/
def capitalized (s : String) : String :=
  match s.toList with
  | [] => ""
  | c :: rest => String.ofList (c.toUpper :: rest)

/-- Whether text is a word in lower case, capitalised or in upper case. -/
def isWord (word s : String) : Bool := s = word || s = capitalized word || s = word.toUpper

/-- Whether a character is an ASCII digit. -/
def isPlainDigit (c : Char) : Bool := '0' ≤ c && c ≤ '9'

/-- Whether a character may stand in a number after its first digit. -/
def isGrouped (c : Char) : Bool := isPlainDigit c || c = '_'

/-- The parts of text between occurrences of a character. -/
def parts (sep : Char) : List Char → List (List Char)
  | [] => [[]]
  | c :: rest =>
    if c = sep then [] :: parts sep rest
    else match parts sep rest with
      | [] => [[c]]
      | p :: ps => (c :: p) :: ps

/-- Whether text is a number below sixty. -/
def isSixtieth : List Char → Bool
  | [c] => isPlainDigit c
  | [c, d] => '0' ≤ c && c ≤ '5' && isPlainDigit d
  | _ => false

/-- Whether text is a row of digits, with underscores after the first. -/
def isGroupedNumber : List Char → Bool
  | [] => false
  | c :: rest => isPlainDigit c && rest.all isGrouped

/-- Whether text is a number in base sixty with at least two places. -/
def isBaseSixty (cs : List Char) : Bool :=
  match parts ':' cs with
  | head :: place :: places => isGroupedNumber head && (place :: places).all isSixtieth
  | _ => false

/-- Whether text is a non-empty row of such characters or underscores. -/
def isRowOf (p : Char → Bool) (cs : List Char) : Bool :=
  !cs.isEmpty && cs.all fun c => p c || c = '_'

/-- Whether a character is a hexadecimal digit. -/
def isHexDigit (c : Char) : Bool :=
  isPlainDigit c || ('a' ≤ c && c ≤ 'f') || ('A' ≤ c && c ≤ 'F')

/-- Whether text has the form of an integer. -/
def isInteger (cs : List Char) : Bool :=
  match (Text.signed cs).2 with
  | '0' :: 'b' :: rest => isRowOf (fun c => c = '0' || c = '1') rest
  | '0' :: 'x' :: rest => isRowOf isHexDigit rest
  | '0' :: rest => rest.all fun c => ('0' ≤ c && c ≤ '7') || c = '_'
  | body => isGroupedNumber body || isBaseSixty body

/-- Whether text is nothing, or an exponent with a sign. -/
def isExponent : List Char → Bool
  | [] => true
  | c :: s :: digits =>
    (c = 'e' || c = 'E') && (s = '+' || s = '-') && !digits.isEmpty && digits.all isPlainDigit
  | _ => false

/-- Whether text is what follows the point of a number. -/
def isFraction (cs : List Char) : Bool := isExponent (cs.dropWhile isGrouped)

/-- Whether text has the form of a number with a point. -/
def isReal (cs : List Char) : Bool :=
  let body := (Text.signed cs).2
  let word := String.ofList body
  let (whole, rest) := body.span (· ≠ '.')
  match rest with
  | '.' :: fraction =>
    (isGroupedNumber whole && isFraction fraction)
      || (isBaseSixty whole && fraction.all isGrouped)
      || (cs.head? = some '.' && (fraction.head?.any isPlainDigit) && isFraction fraction)
      || [".inf", ".Inf", ".INF"].contains word
      || (cs.head? = some '.' && [".nan", ".NaN", ".NAN"].contains word)
  | _ => false

end Tag

/-! ## Times -/

/-- One or two digits at the start of text, and what follows them. -/
def twoDigits? : List Char → Option (List Char × List Char)
  | c :: d :: rest =>
    if Tag.isPlainDigit c then
      if Tag.isPlainDigit d then some ([c, d], rest) else some ([c], d :: rest)
    else none
  | [c] => if Tag.isPlainDigit c then some ([c], []) else none
  | [] => none

/-- Exactly `n` digits at the start of text, and what follows them. -/
def exactDigits? (n : Nat) (cs : List Char) : Option (List Char × List Char) :=
  let digits := cs.take n
  if digits.length = n ∧ digits.all Tag.isPlainDigit then some (digits, cs.drop n) else none

/-- Text after a sign at its start. -/
def after? (c : Char) : List Char → Option (List Char)
  | d :: rest => if d = c then some rest else none
  | [] => none

/-- The offset from universal time, in minutes, that text at the end of a
time denotes: nothing, `Z`, or a sign with hours and perhaps minutes. -/
def offset? (cs : List Char) : Option (Option Int) :=
  match cs.dropWhile fun c => c = ' ' || c = '\t' with
  | [] => if cs.isEmpty then some none else none
  | ['Z'] => some (some 0)
  | c :: rest =>
    if c ≠ '+' ∧ c ≠ '-' then none
    else do
      let (hours, rest) ← twoDigits? rest
      let minutes ← match rest with
        | [] => some []
        | ':' :: minutes => (exactDigits? 2 minutes).bind fun (m, rest) =>
          if rest.isEmpty then some m else none
        | _ => none
      let total : Int := Text.naturalOf hours * 60 + Text.naturalOf minutes
      return some (if c = '-' then -total else total)

/-- The digits after the point of a second, and what follows them. -/
def secondFraction : List Char → List Char × List Char
  | '.' :: rest => (rest.takeWhile Tag.isPlainDigit, rest.dropWhile Tag.isPlainDigit)
  | cs => ([], cs)

/-- The reading of a clock that text denotes. -/
def clock? (cs : List Char) : Option Clock := do
  let (hour, rest) ← twoDigits? cs
  let (minute, rest) ← exactDigits? 2 (← after? ':' rest)
  let (second, rest) ← exactDigits? 2 (← after? ':' rest)
  let (fraction, rest) := secondFraction rest
  let offset ← offset? rest
  let micros := (fraction ++ List.replicate 6 '0').take 6
  return {
    hour := Text.naturalOf hour
    minute := Text.naturalOf minute
    second := Text.naturalOf second
    micros := Text.naturalOf micros
    offset }

/-- What stands between a day and a time: a letter, or blanks. -/
def timeAfter? : List Char → Option (List Char)
  | [] => none
  | c :: rest =>
    if c = 'T' ∨ c = 't' then some rest
    else if c = ' ' ∨ c = '\t' then some (rest.dropWhile fun c => c = ' ' || c = '\t')
    else none

/-- A time as text gives it, which the calendar may not have, and whether
month and day are written with two digits. -/
def time? (cs : List Char) : Option (Timestamp × Bool) := do
  let (year, rest) ← exactDigits? 4 cs
  let (month, rest) ← twoDigits? (← after? '-' rest)
  let (day, rest) ← twoDigits? (← after? '-' rest)
  let clock ← if rest.isEmpty then some none else (clock? (← timeAfter? rest)).map some
  return (⟨Text.naturalOf year, Text.naturalOf month, Text.naturalOf day, clock⟩,
    month.length = 2 && day.length = 2)

namespace Tag

/-- Whether text has the form of a time. A day alone has a month and a day
of two digits. -/
def isTime (cs : List Char) : Bool :=
  match time? cs with
  | some (t, full) => t.clock.isSome || full
  | none => false

/-! ## Resolution -/

/-- Text without one line feed at its end, unless that is all. -/
def withoutFinalBreak (s : String) : String :=
  match s.toList.reverse with
  | '\n' :: c :: rest => String.ofList (c :: rest).reverse
  | _ => s

/-- The kind of a plain scalar. -/
def resolve (text : String) : Tag :=
  let s := withoutFinalBreak text
  let cs := s.toList
  if truthWords.any fun w => isWord w.1 s then bool
  else if isReal cs then float
  else if isInteger cs then int
  else if s = "<<" then merge
  else if s = "" || s = "~" || isWord "null" s then null
  else if isTime cs then time
  else if s = "=" then standIn
  else if s = "!" || s = "&" || s = "*" then unknown
  else str

end Tag

end AppSynthesis.Yaml
