/-
AppSynthesis.Number.Decimal — decimal text of numbers.

* `Numeral.ofNat`, `Numeral.ofInt` — integers in decimal.
* `Binary64.shortest` — the fewest significant decimal digits that read
  back as the same number, and of those the nearest to it.
* `Binary64.text` — that decimal written out: positional from `10 ^ -4`
  up to `10 ^ 16`, with an exponent of at least two digits outside.
-/
import AppSynthesis.Number.Binary64

namespace AppSynthesis

namespace Numeral

/-- The decimal numeral of a natural number. -/
def ofNat (n : Nat) : String := String.ofList (Nat.toDigits 10 n)

/-- The decimal numeral of an integer. -/
def ofInt : Int → String
  | .ofNat n => ofNat n
  | .negSucc n => "-" ++ ofNat (n + 1)

end Numeral

namespace Binary64

/-! ## The shortest decimal -/

/-- The decimal exponent of the leading digit of `units`, for a positive
number of units. -/
def leadingExponent (units : Nat) : Int :=
  ((Nat.toDigits 10 (units * Nat.pow 10 340 / one)).length : Int) - 341

/-- `units * 10 ^ shift`, as a ratio of natural numbers in ones. -/
def scaledRatio (units : Nat) : Int → Nat × Nat
  | .ofNat s => (units * Nat.pow 10 s, one)
  | .negSucc s => (units, one * Nat.pow 10 (s + 1))

/-- The neighbours of `units` on the grid of `count` significant digits
that read back as `units`, nearest first. -/
def readingBack (units count : Nat) : List (Nat × Int) :=
  let shift : Int := (count : Int) - 1 - leadingExponent units
  let (num, den) := scaledRatio units shift
  let below := num / den
  let candidates :=
    if 2 * (num % den) < den ∨ (2 * (num % den) = den ∧ below % 2 = 0) then
      [below, below + 1]
    else
      [below + 1, below]
  (candidates.filter fun digits => ofDecimal false digits (-shift) = .finite false units).map
    fun digits => (digits, -shift)

/-- Significant digits `d` and an exponent `e` such that `d * 10 ^ e`
reads back as a positive number of units, with as few digits as
possible; seventeen always suffice. -/
def shortest (units : Nat) : Nat × Int :=
  ((List.range 17).findSome? fun i => (readingBack units (i + 1)).head?).getD (0, 0)

/-! ## Written form -/

/-- Digits with a decimal point after the first `place` of them, which may
lie outside the digits on either side. -/
def positional (digits : List Char) (place : Int) : String :=
  match place with
  | .ofNat 0 => "0." ++ String.ofList digits
  | .ofNat p =>
    let padded := digits ++ List.replicate (p - digits.length) '0'
    let fraction := padded.drop p
    String.ofList (padded.take p) ++ "." ++
      (if fraction.isEmpty then "0" else String.ofList fraction)
  | .negSucc p => "0." ++ String.ofList (List.replicate (p + 1) '0') ++ String.ofList digits

/-- An exponent with its sign and at least two digits. -/
def exponentText (e : Int) : String :=
  let digits := Numeral.ofNat e.natAbs
  "e" ++ (if e < 0 then "-" else "+") ++ (if digits.length < 2 then "0" ++ digits else digits)

/-- The written form of a positive number of units. -/
def magnitudeText (units : Nat) : String :=
  let (digits, exponent) := shortest units
  let written := (Nat.toDigits 10 digits).reverse.dropWhile (· = '0') |>.reverse
  let leading : Int := ((Nat.toDigits 10 digits).length : Int) - 1 + exponent
  if -4 ≤ leading ∧ leading < 16 then
    positional written (leading + 1)
  else
    let rest := written.drop 1
    String.ofList (written.take 1) ++
      (if rest.isEmpty then "" else "." ++ String.ofList rest) ++ exponentText leading

/-- The written form of a number: the shortest decimal that reads back. -/
def text : Binary64 → String
  | .nan => "nan"
  | .infinite s => if s then "-inf" else "inf"
  | .finite s a => (if s then "-" else "") ++ (if a = 0 then "0.0" else magnitudeText a)

end Binary64

end AppSynthesis
