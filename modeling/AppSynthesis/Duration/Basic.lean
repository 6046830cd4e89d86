/-
AppSynthesis.Duration.Basic — lengths of time and their written form.

* `Duration` — a whole number of microseconds, of either sign, that stays
  within 999999999 days.
* `Duration.ofMicros?` — refuses a number outside that range.
* `Duration.text` — the written form: hours, minutes and seconds from one
  second on, below that milliseconds or microseconds alone. A fraction
  ends in no zero.
-/
import AppSynthesis.Number.Decimal

namespace AppSynthesis

/-! ## The type -/

/-- The microseconds of a day. -/
def Duration.day : Int := 86400000000

/-- The least number of microseconds of a duration. -/
def Duration.least : Int := -999999999 * Duration.day

/-- The greatest number of microseconds of a duration: the last moment of
its last day. -/
def Duration.greatest : Int := 1000000000 * Duration.day - 1

/-- A length of time in microseconds. -/
structure Duration where
  micros : Int
  least_le : Duration.least ≤ micros
  le_greatest : micros ≤ Duration.greatest
  deriving DecidableEq, Repr

namespace Duration

/-- The duration of so many microseconds, if that is in range. -/
def ofMicros? (micros : Int) : Option Duration :=
  if h : least ≤ micros ∧ micros ≤ greatest then some ⟨micros, h.1, h.2⟩ else none

theorem ofMicros?_eq_some_iff {micros : Int} {d : Duration} :
    ofMicros? micros = some d ↔ d.micros = micros := by
  unfold ofMicros?
  constructor
  · split
    · rintro h; cases h; rfl
    · intro h; cases h
  · rintro rfl
    rw [dif_pos ⟨d.least_le, d.le_greatest⟩]

/-- No time at all. -/
def zero : Duration := ⟨0, by decide, by decide⟩

instance : Inhabited Duration := ⟨zero⟩

/-- Ten minutes. -/
def tenMinutes : Duration := ⟨600000000, by decide, by decide⟩

/-! ## The written form -/

/-- A whole number with a fraction given in units of `10 ^ -places`: the
zeros that end the fraction are left out, and the point with them. -/
def decimal (places whole fraction : Nat) : String :=
  let digits := Nat.toDigits 10 fraction
  let padded := List.replicate (places - digits.length) '0' ++ digits
  let kept := (padded.reverse.dropWhile (· = '0')).reverse
  Numeral.ofNat whole ++ (if kept.isEmpty then "" else "." ++ String.ofList kept)

/-- The written form of a number of microseconds without its sign. -/
def magnitudeText (micros : Nat) : String :=
  if micros = 0 then "0s"
  else if micros < 1000 then Numeral.ofNat micros ++ "µs"
  else if micros < 1000000 then decimal 3 (micros / 1000) (micros % 1000) ++ "ms"
  else
    let hours := micros / 3600000000
    let minutes := micros % 3600000000 / 60000000
    let rest := micros % 60000000
    (if hours = 0 then "" else Numeral.ofNat hours ++ "h")
      ++ (if hours = 0 ∧ minutes = 0 then "" else Numeral.ofNat minutes ++ "m")
      ++ decimal 6 (rest / 1000000) (rest % 1000000) ++ "s"

/-- The written form of a duration. -/
def text (d : Duration) : String :=
  (if d.micros < 0 then "-" else "") ++ magnitudeText d.micros.natAbs

end Duration

end AppSynthesis
