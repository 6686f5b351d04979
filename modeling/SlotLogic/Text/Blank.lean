/-!
Contract: the three classes of blank characters and the cutting of margins.

Owns: the six blanks between tokens, the blanks of the Unicode standard, the
margins of an integer, and trimming by a class.

Does not own: what a trimmed text means.
-/

set_option autoImplicit false

namespace SlotLogic.Text

/-- The six characters that may stand between tokens: tab, line feed, vertical
tab, form feed, carriage return and space. -/
def isBlank (c : Char) : Bool :=
  c == ' ' || (9 ≤ c.toNat && c.toNat ≤ 13)

/-- Blanks of the Unicode standard, with the four information separators. -/
def isSpace (c : Char) : Bool :=
  isBlank c || (0x1C ≤ c.toNat && c.toNat ≤ 0x1F) || c.toNat == 0x85 || c.toNat == 0xA0
    || c.toNat == 0x1680 || (0x2000 ≤ c.toNat && c.toNat ≤ 0x200A) || c.toNat == 0x2028
    || c.toNat == 0x2029 || c.toNat == 0x202F || c.toNat == 0x205F || c.toNat == 0x3000

/-- Blanks that may surround an integer: the six blanks, and every blank beyond
ASCII. The information separators are not among them. -/
def isMargin (c : Char) : Bool :=
  isBlank c || (isSpace c && 0x80 ≤ c.toNat)

/-- Cut the characters of a class off both ends. -/
def trim (class? : Char → Bool) (text : List Char) : List Char :=
  ((text.dropWhile class?).reverse.dropWhile class?).reverse

end SlotLogic.Text
