/-
AppSynthesis.Value.Text — values as text.

* `Value.text` — text stands for itself, all else is its literal.
* `Value.literal` — `None`, `True`, `False`, numbers in decimal, quoted
  text, lists in brackets and maps in braces, with single blanks after
  commas and colons.
-/
import AppSynthesis.Value.Basic
import AppSynthesis.Text.Quoted
import AppSynthesis.Number.Decimal

namespace AppSynthesis.Value

mutual

/-- The literal of a value, as it stands inside lists, maps and messages. -/
def literal : Value → String
  | .null => "None"
  | .bool b => if b then "True" else "False"
  | .int n => Numeral.ofInt n
  | .float x => x.text
  | .str s => Text.quoted s
  | .stamp _ t => t.literal
  | .list _ items => "[" ++ String.intercalate ", " (literalItems items) ++ "]"
  | .map _ entries => "\x7b" ++ String.intercalate ", " (literalEntries entries) ++ "\x7d"

/-- The literals of the items of a list. -/
def literalItems : List Value → List String
  | [] => []
  | v :: rest => literal v :: literalItems rest

/-- The literals of the entries of a map. -/
def literalEntries : Entries → List String
  | [] => []
  | (k, v) :: rest => (literal k ++ ": " ++ literal v) :: literalEntries rest

end

/-- A value as text. -/
def text : Value → String
  | .str s => s
  | .stamp _ t => t.text " "
  | v => v.literal

end AppSynthesis.Value
