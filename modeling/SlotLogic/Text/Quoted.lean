import SlotLogic.Text.Printable

/-!
Contract: a text as it is quoted in a message.

Owns: the choice of the quotation mark and the escape of each character.

The mark is the apostrophe, unless the text holds an apostrophe and no double
quotation mark. The mark and the backslash are escaped by a backslash; tab, line
feed and carriage return have short escapes; every other unprintable character
is written by its code point in the fewest of two, four or eight hexadecimal
digits. All else stands for itself.

Does not own: which characters are printable.
-/

set_option autoImplicit false

namespace SlotLogic.Text

def quotationMark (text : List Char) : Char :=
  if text.contains '\x27' && !text.contains '\x22' then '\x22' else '\x27'

/-- Lower-case hexadecimal digits of a number, filled with zeros to a width. -/
def hexadecimal (width number : Nat) : List Char :=
  let digits := Nat.toDigits 16 number
  List.replicate (width - digits.length) '0' ++ digits

/-- The escape of an unprintable character by its code point. -/
def codeEscape (code : Nat) : List Char :=
  if code ≤ 0xFF then '\\' :: 'x' :: hexadecimal 2 code
  else if code ≤ 0xFFFF then '\\' :: 'u' :: hexadecimal 4 code
  else '\\' :: 'U' :: hexadecimal 8 code

def quotedChar (mark c : Char) : List Char :=
  if c == mark || c == '\\' then ['\\', c]
  else if c == '\t' then ['\\', 't']
  else if c == '\n' then ['\\', 'n']
  else if c == '\r' then ['\\', 'r']
  else if isPrintable c then [c]
  else codeEscape c.toNat

def quoted (text : List Char) : List Char :=
  let mark := quotationMark text
  mark :: text.flatMap (quotedChar mark) ++ [mark]

def quote (text : String) : String :=
  String.ofList (quoted text.toList)

end SlotLogic.Text
