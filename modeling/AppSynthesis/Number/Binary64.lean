/-
AppSynthesis.Number.Binary64 — the numbers of the 64-bit binary
floating-point format, by exact arithmetic on natural numbers.

* `Binary64` — a finite number is a sign and a count of units, one unit
  being the least positive number of the format, `2 ^ -1074`. Every
  finite number of the format is a whole number of units, so values are
  compared as integers and no exponent has to be normalised.
* `Binary64.ofRatio` — the number of the format nearest to a ratio of
  units, a tie going to the even significand, and infinity from
  `2 ^ 1024` on. Every operation is its exact result followed by this one
  rounding: `ofDecimal`, `ofNat`, `add`, `mul`.
* `Binary64.nearestInt?`, `Binary64.truncate?` — the two ways back to an
  integer.
-/

namespace AppSynthesis

/-- A number of the 64-bit binary format. A finite one is `units` times
`2 ^ -1074`, and negative when the sign says so: zero has both signs. -/
inductive Binary64 where
  | nan
  | infinite (negative : Bool)
  | finite (negative : Bool) (units : Nat)
  deriving DecidableEq, Repr, Inhabited

namespace Binary64

/-! ## Rounding -/

/-- The number of units in one. -/
def one : Nat := Nat.pow 2 1074

/-- The least number of units that the format cannot hold. -/
def limit : Nat := Nat.pow 2 2098

/-- The distance between neighbouring numbers of the format at `units`:
53 significant binary digits are kept. -/
def spacing (units : Nat) : Nat := Nat.pow 2 (units.log2 - 52)

/-- The integer nearest to `num / den`, a tie going to the even one. -/
def divNearest (num den : Nat) : Nat :=
  if den < 2 * (num % den) ∨ (2 * (num % den) = den ∧ num / den % 2 = 1) then
    num / den + 1
  else
    num / den

/-- The number of the format nearest to `num / den` units. -/
def ofRatio (negative : Bool) (num den : Nat) : Binary64 :=
  let gap := spacing (num / den)
  let units := divNearest num (den * gap) * gap
  if limit ≤ units then .infinite negative else .finite negative units

/-- The number nearest to a natural number. -/
def ofNat (n : Nat) : Binary64 :=
  ofRatio false (n * one) 1

/-- The number nearest to `digits * 10 ^ exponent`. Exponents that lie
beyond every number of the format are answered without computing the
power. -/
def ofDecimal (negative : Bool) (digits : Nat) (exponent : Int) : Binary64 :=
  if digits = 0 then .finite negative 0
  else match exponent with
    | .ofNat e =>
      if 400 < e then .infinite negative
      else ofRatio negative (digits * Nat.pow 10 e * one) 1
    | .negSucc e =>
      if digits.log2 + 1100 < 3 * e then .finite negative 0
      else ofRatio negative (digits * one) (Nat.pow 10 (e + 1))

/-! ## Arithmetic -/

/-- The signed number of units of a finite number. -/
def signedUnits (negative : Bool) (units : Nat) : Int :=
  if negative then -(units : Int) else units

/-- The sum, rounded. Opposite infinities have none. -/
def add : Binary64 → Binary64 → Binary64
  | .nan, _ => .nan
  | _, .nan => .nan
  | .infinite s, .infinite t => if s = t then .infinite s else .nan
  | .infinite s, .finite _ _ => .infinite s
  | .finite _ _, .infinite t => .infinite t
  | .finite s a, .finite t b =>
    let sum := signedUnits s a + signedUnits t b
    ofRatio (decide (sum < 0) || (s && t)) sum.natAbs 1

/-- The product, rounded. Zero times infinity has none. -/
def mul : Binary64 → Binary64 → Binary64
  | .nan, _ => .nan
  | _, .nan => .nan
  | .infinite s, .infinite t => .infinite (s != t)
  | .infinite s, .finite t b => if b = 0 then .nan else .infinite (s != t)
  | .finite s a, .infinite t => if a = 0 then .nan else .infinite (s != t)
  | .finite s a, .finite t b => ofRatio (s != t) (a * b) one

/-- The number with the other sign. -/
def neg : Binary64 → Binary64
  | .nan => .nan
  | .infinite s => .infinite (!s)
  | .finite s a => .finite (!s) a

/-! ## Comparison with numbers -/

/-- Whether the number is a zero of either sign. -/
def isZero : Binary64 → Bool
  | .finite _ 0 => true
  | _ => false

/-- Equality as numbers: the zeros are equal, and what is not a number
equals nothing. -/
def sameNumber : Binary64 → Binary64 → Bool
  | .infinite s, .infinite t => s == t
  | .finite s a, .finite t b => signedUnits s a == signedUnits t b
  | _, _ => false

/-- Equality with an integer, by exact comparison. -/
def sameInt : Binary64 → Int → Bool
  | .finite s a, n => signedUnits s a == n * (one : Int)
  | _, _ => false

/-! ## Integers -/

/-- The integer part: digits after the point are dropped. There is none
for an infinity or what is not a number. -/
def truncate? : Binary64 → Option Int
  | .finite s a => some (if s then -((a / one : Nat) : Int) else ((a / one : Nat) : Int))
  | _ => none

/-- The nearest integer, a tie going to the even one. -/
def nearestInt? : Binary64 → Option Int
  | .finite s a =>
    some (if s then -((divNearest a one : Nat) : Int) else ((divNearest a one : Nat) : Int))
  | _ => none

end Binary64

end AppSynthesis
