/-
AppSynthesis.Yaml.Token.Property — anchors, tags and directives.

* `Scan.reference` — the name of an anchor or an alias.
* `Scan.tagName` — a tag, with a handle or written out.
* `Scan.directive` — a line before a document that says how to read it.
-/
import AppSynthesis.Yaml.Token
import AppSynthesis.Yaml.Token.Quoted

namespace AppSynthesis.Yaml.Scan

/-! ## Anchors -/

/-- The name of an anchor or an alias, whose sign is here. -/
def reference : Scan String := do
  skip 1
  let n ← name
  let c ← peek
  if isGap c || "?:,]\x7d%@\x60".toList.contains c then return n else refuse .malformed

/-! ## Tags -/

/-- Whether a character may stand in a tag as it is. -/
def isTagChar (c : Char) : Bool :=
  c.isAlphanum || "-;/?:@&=+$,_.!~*'()[]".toList.contains c

/-- Takes bytes that are written as percent signs and two hexadecimal
digits, as many as there are. -/
def percentBytes : Nat → Scan (List UInt8)
  | 0 => return []
  | fuel + 1 => do
    if (← peek) = '%' then
      skip 1
      let byte ← hexCode 2
      return byte.toUInt8 :: (← percentBytes fuel)
    else return []

/-- The characters of a tag from here on. -/
def tagChars : Nat → Scan (List Char)
  | 0 => return []
  | fuel + 1 => do
    let c ← peek
    if isTagChar c then
      skip 1
      return c :: (← tagChars fuel)
    else if c = '%' then
      match String.fromUTF8? ⟨(← percentBytes (← rounds)).toArray⟩ with
      | some s => return s.toList ++ (← tagChars fuel)
      | none => refuse .malformed
    else return []

/-- The text of a tag, which must not be empty. -/
def tagText : Scan String := do
  let cs ← tagChars (← rounds)
  if cs.isEmpty then refuse .malformed else return String.ofList cs

/-- The handle of a tag: an exclamation mark, or a name between two. -/
def tagHandle : Scan String := do
  if (← peek) ≠ '!' then refuse .malformed
  skip 1
  if (← peek) = ' ' then return "!"
  let cs ← takeWhile isNameChar
  if (← peek) ≠ '!' then refuse .malformed
  skip 1
  return "!" ++ String.ofList cs ++ "!"

/-- Whether a tag has a second exclamation mark before the next space. -/
def hasHandle (cs : List Char) : Bool :=
  (cs.takeWhile fun c => c ≠ ' ' && !isBreakOrEnd c).contains '!'

/-- A tag, whose sign is here. -/
def tagName : Scan TagName := do
  let c ← peekAt 1
  let t ← if c = '<' then do
      skip 2
      let suffix ← tagText
      if (← peek) ≠ '>' then refuse .malformed
      skip 1
      pure ⟨none, suffix⟩
    else if isGap c then do
      skip 1
      pure ⟨none, "!"⟩
    else if hasHandle ((← get).rest.drop 1) then do
      let handle ← tagHandle
      pure ⟨some handle, ← tagText⟩
    else do
      skip 1
      pure ⟨some "!", ← tagText⟩
  let c ← peek
  if c = ' ' || isBreakOrEnd c then return t else refuse .malformed

/-! ## Directives -/

/-- Takes a natural number. -/
def natural : Scan Nat := do
  let digits ← takeWhile fun c => '0' ≤ c && c ≤ '9'
  if digits.isEmpty then refuse .malformed
  return digits.foldl (fun n c => n * 10 + (c.toNat - '0'.toNat)) 0

/-- Nothing but a space or the end of the line may follow here. -/
def wordEnd : Scan Unit := do
  let c ← peek
  if c = ' ' || isBreakOrEnd c then return () else refuse .malformed

/-- A directive, whose sign is here, with its line. -/
def directive : Scan Directive := do
  skip 1
  let n ← name
  wordEnd
  let d ← match n with
    | "YAML" => do
      spaces
      let major ← natural
      if (← peek) ≠ '.' then refuse .malformed
      skip 1
      discard natural
      wordEnd
      pure (.version major)
    | "TAG" => do
      spaces
      let handle ← tagHandle
      if (← peek) ≠ ' ' then refuse .malformed
      spaces
      let expansion ← tagText
      wordEnd
      pure (.handle handle expansion)
    | _ => do
      discard restOfLine
      pure .reserved
  lineEnd
  return d

end AppSynthesis.Yaml.Scan
