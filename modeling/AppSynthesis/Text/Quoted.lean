/-
AppSynthesis.Text.Quoted — text in quotes, as it stands inside the text of
lists, maps and error messages.

* `Text.quoted` — single quotes, or double ones when the text holds a
  single quote and no double one; the quote in use, the backslash and
  what is not printable are escaped.
-/
import AppSynthesis.Text.Printable

namespace AppSynthesis.Text

/-- A number in lower-case hexadecimal, with at least `width` digits. -/
def hex (width n : Nat) : String :=
  let digits := Nat.toDigits 16 n
  String.ofList (List.replicate (width - digits.length) '0' ++ digits)

/-- The quote that is written around text: double when the text holds a
single quote and no double quote. -/
def quoteFor (cs : List Char) : Char :=
  if cs.contains '\'' && !cs.contains '"' then '"' else '\''

/-- One character as it stands between quotes `q`. -/
def escaped (q c : Char) : String :=
  if c = q ∨ c = '\\' then String.ofList ['\\', c]
  else if c = '\t' then "\\t"
  else if c = '\n' then "\\n"
  else if c = '\r' then "\\r"
  else if isPrintable c then String.singleton c
  else if c.toNat ≤ 0xff then "\\x" ++ hex 2 c.toNat
  else if c.toNat ≤ 0xffff then "\\u" ++ hex 4 c.toNat
  else "\\U" ++ hex 8 c.toNat

/-- Text in quotes. -/
def quoted (s : String) : String :=
  let q := quoteFor s.toList
  String.singleton q ++ String.join (s.toList.map (escaped q)) ++ String.singleton q

end AppSynthesis.Text
