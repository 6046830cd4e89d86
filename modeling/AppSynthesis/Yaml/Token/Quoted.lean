/-
AppSynthesis.Yaml.Token.Quoted — scalars in quotes.

* `Scan.quoted` — a scalar in single quotes, where a quote is written
  twice, or in double quotes, where a backslash begins an escape. Line
  breaks are folded, and blanks around them do not count.
-/
import AppSynthesis.Yaml.Cursor

namespace AppSynthesis.Yaml.Scan

/-! ## Blanks between the words -/

/-- The line breaks among the blanks that follow a line break. No document
may begin or end there. -/
def foldedBreaks : Scan (List Char) := do
  let run ← takeWhile fun c => c = ' ' || c = '\t' || isBreak c
  if (← get).atBoundary then refuse .malformed else return breaksOf run

/-- What the blanks that stand here read as. -/
def foldedGap : Scan (List Char) := do
  let blanks ← takeWhile fun c => c = ' ' || c = '\t'
  match ← lineBreak with
  | first :: _ => return foldBreaks first (← foldedBreaks)
  | [] => if (← peek) = endMark then refuse .malformed else return blanks

/-! ## Escapes -/

/-- The character that a one-letter escape stands for. -/
def escape? : Char → Option Char
  | '0' => some '\x00'
  | 'a' => some '\x07'
  | 'b' => some '\x08'
  | 't' => some '\t'
  | '\t' => some '\t'
  | 'n' => some '\n'
  | 'v' => some '\x0b'
  | 'f' => some '\x0c'
  | 'r' => some '\r'
  | 'e' => some '\x1b'
  | ' ' => some ' '
  | '"' => some '"'
  | '\\' => some '\\'
  | '/' => some '/'
  | 'N' => some '\x85'
  | '_' => some '\xa0'
  | 'L' => some '\u2028'
  | 'P' => some '\u2029'
  | _ => none

/-- How many hexadecimal digits follow the letter of an escape. -/
def escapeWidth? : Char → Option Nat
  | 'x' => some 2
  | 'u' => some 4
  | 'U' => some 8
  | _ => none

/-- The value of a hexadecimal digit. -/
def hexDigit? (c : Char) : Option Nat :=
  if '0' ≤ c ∧ c ≤ '9' then some (c.toNat - '0'.toNat)
  else if 'a' ≤ c ∧ c ≤ 'f' then some (c.toNat - 'a'.toNat + 10)
  else if 'A' ≤ c ∧ c ≤ 'F' then some (c.toNat - 'A'.toNat + 10)
  else none

/-- The number that hexadecimal digits denote. -/
def hexOf? (cs : List Char) : Option Nat :=
  cs.foldl (fun n c => do return (← n) * 16 + (← hexDigit? c)) (some 0)

/-- Takes exactly `width` hexadecimal digits. -/
def hexCode (width : Nat) : Scan Nat := do
  let digits := (← get).rest.take width
  match hexOf? digits with
  | some n => if digits.length = width then skip width; return n else refuse .malformed
  | none => refuse .malformed

/-- Whether a code is the first half of a pair of 16-bit units. -/
def isHighHalf (code : Nat) : Bool := 0xd800 ≤ code && code ≤ 0xdbff

/-- Whether a code is the second half of a pair of 16-bit units. -/
def isLowHalf (code : Nat) : Bool := 0xdc00 ≤ code && code ≤ 0xdfff

/-- The second half of a pair of 16-bit units, if it is written here as an
escape. -/
def lowHalf? (s : Cursor) : Option Nat :=
  match s.rest with
  | '\\' :: 'u' :: rest =>
    if rest.length < 4 then none else (hexOf? (rest.take 4)).filter isLowHalf
  | _ => none

/-- The character of a code. Two halves of a pair make one character, and
a half on its own names none, for which the replacement character
stands. -/
def codeChar (code : Nat) : Scan Char := do
  if code < 0xd800 ∨ (0xe000 ≤ code ∧ code ≤ 0x10ffff) then return Char.ofNat code
  else if 0x7fffffff < code then refuse .outOfRange
  else if 0x10ffff < code then refuse .badScalar
  else
    match (lowHalf? (← get)).filter fun _ => isHighHalf code with
    | some low =>
      skip 6
      return Char.ofNat (0x10000 + (code - 0xd800) * 0x400 + (low - 0xdc00))
    | none => return '\ufffd'

/-- What an escape reads as; the backslash has been taken. An escaped line
break leaves only the empty lines after it. -/
def escaped : Scan (List Char) := do
  let c ← peek
  match escape? c, escapeWidth? c with
  | some e, _ => skip 1; return [e]
  | none, some width =>
    skip 1
    return [← codeChar (← hexCode width)]
  | none, none =>
    if isBreak c then
      discard lineBreak
      foldedBreaks
    else refuse .malformed

/-! ## Scalars -/

/-- The text up to the closing quote `q`, in at most so many rounds. -/
def quotedText (q : Char) : Nat → Scan (List Char)
  | 0 => refuse .malformed
  | fuel + 1 => do
    let c ← peek
    if c = q then
      skip 1
      if q = '\'' ∧ (← peek) = q then
        skip 1
        return q :: (← quotedText q fuel)
      else return []
    else if q = '"' ∧ c = '\\' then
      skip 1
      let piece ← escaped
      return piece ++ (← quotedText q fuel)
    else if isGap c then
      let piece ← foldedGap
      return piece ++ (← quotedText q fuel)
    else
      skip 1
      return c :: (← quotedText q fuel)

/-- A scalar in the quotes `q`, which open here. -/
def quoted (q : Char) : Scan String := do
  skip 1
  return String.ofList (← quotedText q (← rounds))

end AppSynthesis.Yaml.Scan
