import SlotLogic.Decimal.Basic
import SlotLogic.Text.Integer

/-!
Contract: the decimals that a text spells.

Owns: the grammar of decimal numerals and of the names of decimals that are not
finite.

Blanks around the text are cut and every underscore is dropped. What is left is
an optional sign and then either digits with an optional point among or around
them and an optional exponent, or the name of an infinity or of a NaN in letters
of any case. Digits may be of any script. The coefficient keeps every digit that
is written, so trailing zeros and the sign of zero survive.

Does not own: signs and digits themselves.
-/

set_option autoImplicit false

namespace SlotLogic.ExtendedDecimal

open SlotLogic.Text

/-- The exponent after the digits of a numeral; absent, it is zero. -/
def readExponent : List Char → Option Int
  | [] => some 0
  | mark :: signed =>
    if mark == 'e' || mark == 'E' then
      let (negative, unsigned) := takeSign signed
      match takeDigits unsigned with
      | ([], _) => none
      | (digits, []) =>
        some (if negative then -(digitsValue digits : Int) else digitsValue digits)
      | (_, _ :: _) => none
    else none

/-- The digits after a point, and the rest. -/
def takeFraction : List Char → List Nat × List Char
  | '.' :: rest => takeDigits rest
  | rest => ([], rest)

def readFinite (negative : Bool) (unsigned : List Char) : Option ExtendedDecimal :=
  let (whole, afterWhole) := takeDigits unsigned
  let (fraction, afterFraction) := takeFraction afterWhole
  if whole.isEmpty && fraction.isEmpty then none
  else do
    let exponent ← readExponent afterFraction
    let number : Decimal :=
      ⟨negative, digitsValue (whole ++ fraction), exponent - fraction.length⟩
    if number.isRepresentable then some (.finite number) else none

/-- The payload of a NaN: digits to the end of the text, possibly none. -/
def readPayload (text : List Char) : Option Nat :=
  match takeDigits text with
  | (digits, []) => some (digitsValue digits)
  | (_, _ :: _) => none

/-- An infinity or a NaN without its sign, in lower-case letters. -/
def readName (negative : Bool) : List Char → Option ExtendedDecimal
  | ['i', 'n', 'f'] => some (.infinite negative)
  | ['i', 'n', 'f', 'i', 'n', 'i', 't', 'y'] => some (.infinite negative)
  | 'n' :: 'a' :: 'n' :: rest => (readPayload rest).map (.nan negative false)
  | 's' :: 'n' :: 'a' :: 'n' :: rest => (readPayload rest).map (.nan negative true)
  | _ => none

def read (text : List Char) : Option ExtendedDecimal :=
  let (negative, unsigned) := takeSign ((trim isSpace text).filter (· != '_'))
  (readFinite negative unsigned).or (readName negative (unsigned.map Char.toLower))

end SlotLogic.ExtendedDecimal
