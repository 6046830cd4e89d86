/-
AppSynthesis.Calendar — dates and times of day as documents carry them.

* `Timestamp` — a day, or a day with a clock reading, which may carry an
  offset from universal time.
* `Timestamp.make?` — refuses what the calendar does not have.
* `Timestamp.same` — a day equals the same day only; two readings with
  an offset are equal when they name the same instant; two without one,
  when they are the same reading.
-/
import AppSynthesis.Number.Decimal

namespace AppSynthesis

/-- A reading of a clock; the offset from universal time is in minutes. -/
structure Clock where
  hour : Nat
  minute : Nat
  second : Nat
  micros : Nat
  offset : Option Int
  deriving DecidableEq, Repr, Inhabited

/-- A day of the Gregorian calendar, with or without a clock reading. -/
structure Timestamp where
  year : Nat
  month : Nat
  day : Nat
  clock : Option Clock
  deriving DecidableEq, Repr, Inhabited

namespace Timestamp

/-! ## The calendar -/

/-- Whether a year has a 29 February. -/
def isLeap (year : Nat) : Bool := year % 4 == 0 && (year % 100 != 0 || year % 400 == 0)

/-- The number of days of a month. -/
def daysIn (year month : Nat) : Nat :=
  if month = 2 then (if isLeap year then 29 else 28)
  else if month = 4 ∨ month = 6 ∨ month = 9 ∨ month = 11 then 30
  else 31

/-- Whether the calendar has the day and the clock has the reading; an
offset stays within one day. -/
def isValid (t : Timestamp) : Bool :=
  1 ≤ t.year && t.year ≤ 9999 && 1 ≤ t.month && t.month ≤ 12 && 1 ≤ t.day
    && t.day ≤ daysIn t.year t.month
    && (match t.clock with
      | none => true
      | some c => c.hour < 24 && c.minute < 60 && c.second < 60 && c.micros < 1000000
          && (match c.offset with
            | none => true
            | some o => -1440 < o && o < 1440))

/-- The timestamp, if the calendar has it. -/
def make? (t : Timestamp) : Option Timestamp := if t.isValid then some t else none

/-- Days from the first day of year one. -/
def dayNumber (t : Timestamp) : Nat :=
  let y := t.year - 1
  y * 365 + y / 4 - y / 100 + y / 400
    + (List.range (t.month - 1)).foldl (fun days m => days + daysIn t.year (m + 1)) 0
    + (t.day - 1)

/-- Microseconds of a reading from the first day of year one, in the
time that its clock shows. -/
def localMicros (t : Timestamp) (c : Clock) : Nat :=
  (((t.dayNumber * 24 + c.hour) * 60 + c.minute) * 60 + c.second) * 1000000 + c.micros

/-- Equality of what two timestamps name. -/
def same (a b : Timestamp) : Bool :=
  match a.clock, b.clock with
  | none, none => a == b
  | some c, some d =>
    match c.offset, d.offset with
    | none, none => a.localMicros c == b.localMicros d
    | some o, some p =>
      (a.localMicros c : Int) - o * 60000000 == (b.localMicros d : Int) - p * 60000000
    | _, _ => false
  | _, _ => false

/-! ## Written forms -/

/-- A number with at least `width` digits. -/
def padded (width n : Nat) : String :=
  let digits := Numeral.ofNat n
  String.ofList (List.replicate (width - digits.length) '0') ++ digits

/-- An offset as sign, hours and minutes. -/
def offsetText (offset : Int) : String :=
  (if offset < 0 then "-" else "+") ++ padded 2 (offset.natAbs / 60) ++ ":"
    ++ padded 2 (offset.natAbs % 60)

/-- The written form: year, month and day, then after `separator` the
reading, its fraction where it has one, and its offset. -/
def text (separator : String) (t : Timestamp) : String :=
  padded 4 t.year ++ "-" ++ padded 2 t.month ++ "-" ++ padded 2 t.day ++
    match t.clock with
    | none => ""
    | some c =>
      separator ++ padded 2 c.hour ++ ":" ++ padded 2 c.minute ++ ":" ++ padded 2 c.second
        ++ (if c.micros = 0 then "" else "." ++ padded 6 c.micros)
        ++ (match c.offset with
          | none => ""
          | some o => offsetText o)

/-- An offset as it stands in the literal of a timestamp. -/
def offsetLiteral (offset : Int) : String :=
  if offset = 0 then "datetime.timezone.utc"
  else
    let seconds := offset * 60
    "datetime.timezone(datetime.timedelta(" ++
      (if offset < 0 then "days=-1, seconds=" ++ Numeral.ofInt (seconds + 86400)
       else "seconds=" ++ Numeral.ofInt seconds) ++ "))"

/-- The literal of a timestamp, as it stands inside the text of lists and
maps: a zero fraction is left out, and a zero second before it too. -/
def literal (t : Timestamp) : String :=
  let day := [t.year, t.month, t.day]
  match t.clock with
  | none => "datetime.date(" ++ String.intercalate ", " (day.map Numeral.ofNat) ++ ")"
  | some c =>
    let reading :=
      if c.micros ≠ 0 then [c.hour, c.minute, c.second, c.micros]
      else if c.second ≠ 0 then [c.hour, c.minute, c.second]
      else [c.hour, c.minute]
    "datetime.datetime(" ++ String.intercalate ", " ((day ++ reading).map Numeral.ofNat)
      ++ (match c.offset with
        | none => ""
        | some o => ", tzinfo=" ++ offsetLiteral o) ++ ")"

end Timestamp

end AppSynthesis
