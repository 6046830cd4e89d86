/-
AppSynthesis.Text.Blank — blank characters and trimming.

* `Text.isBlank` — white space, and the four information separators.
* `Text.isPlainBlank` — the blanks among the first 128 characters less
  the separators.
* `Text.trimBoth` — characters without those of some class at both ends.
-/

namespace AppSynthesis.Text

/-- The blanks below code point 128 that are no separators: tab, line
feed, vertical tab, form feed, carriage return and space. -/
def isPlainBlank (c : Char) : Bool :=
  (0x09 ≤ c.toNat && c.toNat ≤ 0x0d) || c.toNat == 0x20

/-- The blanks from code point 128 on. -/
def isWideBlank (c : Char) : Bool :=
  c.toNat == 0x85 || c.toNat == 0xa0 || c.toNat == 0x1680
    || (0x2000 ≤ c.toNat && c.toNat ≤ 0x200a)
    || c.toNat == 0x2028 || c.toNat == 0x2029 || c.toNat == 0x202f || c.toNat == 0x205f
    || c.toNat == 0x3000

/-- Whether a character is blank. -/
def isBlank (c : Char) : Bool :=
  isPlainBlank c || (0x1c ≤ c.toNat && c.toNat ≤ 0x1f) || isWideBlank c

/-- The characters without those satisfying `p` at both ends. -/
def trimBoth (p : Char → Bool) (cs : List Char) : List Char :=
  ((cs.dropWhile p).reverse.dropWhile p).reverse

end AppSynthesis.Text
