/-
AppSynthesis.Duration.Argument — durations that are handed in as values.

* `parseDuration` — null is no duration, text is read, and anything else
  is refused.
-/
import AppSynthesis.Error

namespace AppSynthesis

/-- The duration that a value denotes, if any. -/
def parseDuration (v : Value) : Except Error (Option Duration) :=
  match v with
  | .null => .ok none
  | .str s =>
    match Duration.parse s with
    | .ok d => .ok (some d)
    | .error .malformed => .error (.input (.malformedDuration s))
    | .error .outOfRange => .error (.fault .outOfRange)
  | v => .error (.input (.durationNotText v))

end AppSynthesis
