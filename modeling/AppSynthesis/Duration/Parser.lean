/-
AppSynthesis.Duration.Parser — reading durations.

The grammar: blanks around the text do not count; then an optional sign,
and either a single `0` or one or more parts, each a number directly
followed by a unit. A number has digits before its point, after it, or on
both sides.

* `Duration.Part`, `Duration.Part.written` — a part and its spelling.
* `Duration.part?`, `Duration.parts?` — the split of text into parts.
* `Duration.sum` — the parts added up in 64-bit binary floating point, in
  microseconds; this is where precision is lost.
* `Duration.parse` — the sum rounded to whole microseconds, a tie going
  to the even number, then signed.
-/
import AppSynthesis.Duration.Basic
import AppSynthesis.Number.Binary64
import AppSynthesis.Text.Blank
import AppSynthesis.Text.Digit

namespace AppSynthesis.Duration

/-! ## Units and parts -/

/-- The units of time; a microsecond has two spellings. -/
inductive TimeUnit where
  | hour
  | minute
  | second
  | milli
  | micro
  | microSign
  | nano
  deriving DecidableEq, Repr

namespace TimeUnit

/-- The spelling of a unit. -/
def written : TimeUnit → List Char
  | .hour => ['h']
  | .minute => ['m']
  | .second => ['s']
  | .milli => ['m', 's']
  | .micro => ['u', 's']
  | .microSign => ['µ', 's']
  | .nano => ['n', 's']

/-- The microseconds of a unit. -/
def micros : TimeUnit → Binary64
  | .hour => .ofNat 3600000000
  | .minute => .ofNat 60000000
  | .second => .ofNat 1000000
  | .milli => .ofNat 1000
  | .micro => .ofNat 1
  | .microSign => .ofNat 1
  | .nano => .ofDecimal false 1 (-3)

/-- The unit that text begins with, and what follows it. A unit that
continues another is preferred: `ms` is milliseconds. -/
def read? : List Char → Option (TimeUnit × List Char)
  | 'h' :: rest => some (.hour, rest)
  | 'm' :: 's' :: rest => some (.milli, rest)
  | 'm' :: rest => some (.minute, rest)
  | 's' :: rest => some (.second, rest)
  | 'u' :: 's' :: rest => some (.micro, rest)
  | 'µ' :: 's' :: rest => some (.microSign, rest)
  | 'n' :: 's' :: rest => some (.nano, rest)
  | _ => none

/-- Reading a unit takes its spelling off the text. -/
theorem eq_of_read? {cs rest : List Char} {u : TimeUnit} (h : read? cs = some (u, rest)) :
    cs = u.written ++ rest := by
  unfold read? at h
  split at h <;> simp_all [written]
  all_goals obtain ⟨rfl, rfl⟩ := h; rfl

/-- Every unit has a spelling. -/
theorem written_length_pos (u : TimeUnit) : 0 < u.written.length := by
  cases u <;> decide

end TimeUnit

/-- A number and its unit. The digits after the point are given when there
is a point, and may be none. -/
structure Part where
  whole : List Char
  fraction : Option (List Char)
  unit : TimeUnit
  deriving DecidableEq, Repr

/-- The spelling of the digits after a point, with the point. -/
def fractionWritten : Option (List Char) → List Char
  | none => []
  | some digits => '.' :: digits

namespace Part

/-- The spelling of a part. -/
def written (p : Part) : List Char :=
  p.whole ++ fractionWritten p.fraction ++ p.unit.written

/-- The number of a part, read as one decimal. -/
def amount (p : Part) : Binary64 :=
  let fraction := p.fraction.getD []
  .ofDecimal false (Text.naturalOf (p.whole ++ fraction)) (-(fraction.length : Int))

/-- The microseconds of a part. -/
def micros (p : Part) : Binary64 := p.amount.mul p.unit.micros

end Part

/-! ## Splitting text into parts -/

/-- The number that text begins with, as the digits before and after its
point, and what follows it. -/
def number? (cs : List Char) : Option (List Char × Option (List Char) × List Char) :=
  let whole := cs.takeWhile Text.isDigit
  match cs.dropWhile Text.isDigit with
  | '.' :: tail =>
    let fraction := tail.takeWhile Text.isDigit
    if whole.isEmpty && fraction.isEmpty then none
    else some (whole, some fraction, tail.dropWhile Text.isDigit)
  | rest => if whole.isEmpty then none else some (whole, none, rest)

/-- The part that text begins with, and what follows it. -/
def part? (cs : List Char) : Option (Part × List Char) :=
  match number? cs with
  | none => none
  | some (whole, fraction, rest) =>
    (TimeUnit.read? rest).map fun (unit, rest) => (⟨whole, fraction, unit⟩, rest)

/-- Reading a number takes its spelling off the text. -/
theorem eq_of_number? {cs whole rest : List Char} {fraction : Option (List Char)}
    (h : number? cs = some (whole, fraction, rest)) :
    cs = whole ++ fractionWritten fraction ++ rest := by
  have split : cs = cs.takeWhile Text.isDigit ++ cs.dropWhile Text.isDigit :=
    List.takeWhile_append_dropWhile.symm
  unfold number? at h
  simp only at h
  split at h
  next tail htail =>
    split at h
    · cases h
    · simp only [Option.some.injEq, Prod.mk.injEq] at h
      obtain ⟨rfl, rfl, rfl⟩ := h
      rw [htail] at split
      simp only [fractionWritten, List.append_assoc, List.cons_append]
      rw [List.takeWhile_append_dropWhile]
      exact split
  next htail =>
    split at h
    · cases h
    · simp only [Option.some.injEq, Prod.mk.injEq] at h
      obtain ⟨rfl, rfl, rfl⟩ := h
      simp [fractionWritten]

/-- Reading a part takes its spelling off the text. -/
theorem eq_of_part? {cs rest : List Char} {p : Part} (h : part? cs = some (p, rest)) :
    cs = p.written ++ rest := by
  unfold part? at h
  split at h
  · cases h
  next whole fraction tail hnumber =>
    obtain ⟨⟨u, r⟩, hunit, he⟩ := Option.map_eq_some_iff.1 h
    simp only [Prod.mk.injEq] at he
    obtain ⟨rfl, rfl⟩ := he
    rw [eq_of_number? hnumber, TimeUnit.eq_of_read? hunit]
    simp [Part.written]

/-- Reading a part leaves less text. -/
theorem length_of_part? {cs rest : List Char} {p : Part} (h : part? cs = some (p, rest)) :
    rest.length < cs.length := by
  have := p.unit.written_length_pos
  rw [eq_of_part? h]
  simp only [Part.written, List.length_append]
  omega

/-- The parts that make up text; there is at least one. -/
def parts? (cs : List Char) : Option (List Part) :=
  match h : part? cs with
  | none => none
  | some (p, rest) =>
    if rest.isEmpty then some [p]
    else
      have : rest.length < cs.length := length_of_part? h
      (parts? rest).map (p :: ·)
termination_by cs.length

/-! ## Reading durations -/

/-- Why text is no duration. -/
inductive Refusal where
  | malformed
  | outOfRange
  deriving DecidableEq, Repr

/-- The microseconds of the parts, added up one after the other. -/
def sum (parts : List Part) : Binary64 :=
  parts.foldl (fun total p => total.add p.micros) (.finite false 0)

/-- The duration of so many microseconds, negated when `negative`. -/
def ofSum (negative : Bool) (micros : Binary64) : Except Refusal Duration :=
  match micros.nearestInt? with
  | none => .error .outOfRange
  | some n =>
    match ofMicros? (if negative then -n else n) with
    | none => .error .outOfRange
    | some d => .ok d

/-- The duration that text denotes. -/
def parse (s : String) : Except Refusal Duration :=
  let (negative, body) := Text.signed (Text.trimBoth Text.isBlank s.toList)
  if body = ['0'] then .ok zero
  else match parts? body with
    | none => .error .malformed
    | some parts => ofSum negative (sum parts)

end AppSynthesis.Duration
