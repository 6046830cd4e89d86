/-
AppSynthesis.Number.Reading — numbers read from text.

* `Numeral.integer?` — an integer in a base: blanks around it, a sign, a
  mark of the base, and digits of any script with single underscores
  between them.
* `Numeral.real?` — a number with a point or an exponent, or the name of
  one that is not finite.
-/
import AppSynthesis.Number.Binary64
import AppSynthesis.Text.Blank
import AppSynthesis.Text.Digit

namespace AppSynthesis.Numeral

/-! ## Blanks -/

/-- Whether a character may stand around a number in text: the blanks
below code point 128 without the separators, and all blanks above. -/
def isBlankAround (c : Char) : Bool := Text.isPlainBlank c || Text.isWideBlank c

/-! ## Integers -/

/-- The most digits that an integer in decimal text may have. -/
def maxDigits : Nat := 4300

/-- The value of a digit or letter as a digit in a base. -/
def digitIn? (base : Nat) (c : Char) : Option Nat :=
  let value :=
    if 'a' ≤ c ∧ c ≤ 'z' then some (c.toNat - 'a'.toNat + 10)
    else if 'A' ≤ c ∧ c ≤ 'Z' then some (c.toNat - 'A'.toNat + 10)
    else Text.digit? c
  value.filter (· < base)

/-- The values of digits in a base: single underscores between digits do
not count, and there is at least one digit. -/
def digitsIn? (base : Nat) : List Char → Option (List Nat)
  | [] => none
  | [c] => (digitIn? base c).map fun d => [d]
  | c :: '_' :: rest => do return (← digitIn? base c) :: (← digitsIn? base rest)
  | c :: rest => do return (← digitIn? base c) :: (← digitsIn? base rest)

/-- The letter that marks a base after a zero. -/
def baseMark? : Nat → Option Char
  | 2 => some 'b'
  | 8 => some 'o'
  | 16 => some 'x'
  | _ => none

/-- Digits without the mark of their base. -/
def unmarked (base : Nat) : List Char → List Char
  | '0' :: c :: rest =>
    if baseMark? base = some c.toLower then
      match rest with
      | '_' :: rest => rest
      | rest => rest
    else '0' :: c :: rest
  | cs => cs

/-- The integer in a base that text denotes. -/
def integer? (base : Nat) (cs : List Char) : Option Int :=
  let (negative, body) := Text.signed (Text.trimBoth isBlankAround cs)
  match digitsIn? base (unmarked base body) with
  | none => none
  | some digits =>
    if base = 10 ∧ maxDigits < digits.length then none
    else
      let n : Int := (digits.foldl (fun n d => n * base + d) 0 : Nat)
      some (if negative then -n else n)

/-! ## Numbers with a point -/

/-- The exponent that text after a number denotes. -/
def exponent? : List Char → Option Int
  | [] => some 0
  | c :: rest =>
    let (negative, digits) := Text.signed rest
    if c.toLower = 'e' ∧ !digits.isEmpty ∧ digits.all Text.isDigit then
      let n : Int := Text.naturalOf digits
      some (if negative then -n else n)
    else none

/-- The unsigned number that text denotes: digits with at most one point,
which has a digit on one side at least, and perhaps an exponent. -/
def magnitude? (negative : Bool) (cs : List Char) : Option Binary64 :=
  let whole := cs.takeWhile Text.isDigit
  let rest := cs.dropWhile Text.isDigit
  let (fraction, rest) := match rest with
    | '.' :: tail => (tail.takeWhile Text.isDigit, tail.dropWhile Text.isDigit)
    | rest => ([], rest)
  if whole.isEmpty && fraction.isEmpty then none
  else (exponent? rest).map fun e =>
    .ofDecimal negative (Text.naturalOf (whole ++ fraction)) (e - fraction.length)

/-- The number that text denotes. -/
def real? (cs : List Char) : Option Binary64 :=
  let (negative, body) := Text.signed (Text.trimBoth isBlankAround cs)
  let word := String.ofList (body.map Char.toLower)
  if word = "inf" ∨ word = "infinity" then some (.infinite negative)
  else if word = "nan" then some .nan
  else magnitude? negative body

end AppSynthesis.Numeral
