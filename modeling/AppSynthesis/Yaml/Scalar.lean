/-
AppSynthesis.Yaml.Scalar — the values of scalars.

* `Tag.valueOf` — the value that the text of a scalar denotes as one of
  its kind. The text of an explicit tag may have any form, so each kind
  has its own refusals.
-/
import AppSynthesis.Number.Reading
import AppSynthesis.Value.Basic
import AppSynthesis.Yaml.Cursor
import AppSynthesis.Yaml.Tag

namespace AppSynthesis.Yaml

/-! ## Numbers -/

/-- Text without underscores. -/
def ungrouped (s : String) : List Char := s.toList.filter (· ≠ '_')

/-- The number that `places` denote in base sixty, most significant
first. -/
def inBaseSixty (places : List Int) : Int := places.foldl (fun n p => n * 60 + p) 0

/-- The integer that unsigned text denotes: after a zero the base is two,
sixteen or eight, and colons separate places in base sixty. -/
def natural? (cs : List Char) : Option Int :=
  match cs with
  | ['0'] => some 0
  | '0' :: 'b' :: rest => Numeral.integer? 2 rest
  | '0' :: 'x' :: rest => Numeral.integer? 16 rest
  | '0' :: _ => Numeral.integer? 8 cs
  | _ => ((Tag.parts ':' cs).mapM (Numeral.integer? 10)).map inBaseSixty

/-- The integer that a scalar denotes. -/
def integerOf (s : String) : Except Refusal Int :=
  let (negative, body) := Text.signed (ungrouped s)
  if body.isEmpty then .error .emptyScalar
  else match natural? body with
    | none => .error .badScalar
    | some n => .ok (if negative then -n else n)

/-- The sum of places in base sixty, the least significant first, in 64-bit
floating point. -/
def sixtySum (places : List Binary64) : Binary64 :=
  (places.foldl (fun (total, base) p => (total.add (p.mul (.ofNat base)), base * 60))
    (Binary64.finite false 0, 1)).1

/-- The unsigned number that text denotes. -/
def positive? (cs : List Char) : Option Binary64 :=
  let word := String.ofList cs
  if word = ".inf" then some (.infinite false)
  else if word = ".nan" then some .nan
  else if cs.contains ':' then
    ((Tag.parts ':' cs).mapM Numeral.real?).map fun places => sixtySum places.reverse
  else Numeral.real? cs

/-- The number that a scalar denotes. -/
def realOf (s : String) : Except Refusal Binary64 :=
  let text := (ungrouped s).map Char.toLower
  if text.isEmpty then .error .emptyScalar
  else
    let (negative, body) := Text.signed text
    match positive? body with
    | none => .error .badScalar
    | some x => .ok (if negative then x.neg else x)

/-! ## Scalars of all kinds -/

/-- The truth value that a scalar denotes, in letters of either case. -/
def truthOf (s : String) : Except Refusal Bool :=
  match Tag.truthWords.find? fun w => w.1 = s.toLower with
  | some w => .ok w.2
  | none => .error .unknownScalar

/-- The time that a scalar denotes. -/
def timeOf (s : String) : Except Refusal Timestamp :=
  match time? (Tag.withoutFinalBreak s).toList with
  | none => .error .noTime
  | some (t, _) =>
    match Timestamp.make? t with
    | some t => .ok t
    | none => .error .badScalar

/-- The value that the text of a scalar denotes as one of a kind. The kinds
of collections, and the signs with a meaning in maps, have no scalars. -/
def Tag.valueOf (t : Tag) (origin : Origin) (text : String) : Except Refusal Value :=
  match t with
  | .null => .ok .null
  | .bool => .bool <$> truthOf text
  | .int => .int <$> integerOf text
  | .float => .float <$> realOf text
  | .str => .ok (.str text)
  | .time => .stamp origin <$> timeOf text
  | _ => .error .malformed

end AppSynthesis.Yaml
