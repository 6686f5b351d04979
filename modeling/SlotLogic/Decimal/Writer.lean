import SlotLogic.Decimal.Basic

/-!
Contract: the text of a decimal.

Owns: the choice between plain and scientific notation and the digits, point and
exponent of each.

Plain notation is used when the exponent is not positive and the leading digit
stands at `10 ^ -6` or higher. It shows every digit of the coefficient.
Scientific notation puts the point after the leading digit and always signs its
exponent. The written form is kept: no zero is added or dropped that would lose
the exponent.

Does not own: reading the text back.
-/

set_option autoImplicit false

namespace SlotLogic

namespace Decimal

def digits (number : Decimal) : List Char :=
  Nat.toDigits 10 number.coefficient

/-- Digits with a point before the last `places` of them, filled with zeros so
that a digit stands before the point. -/
def withPoint (digits : List Char) (places : Nat) : List Char :=
  let filled := List.replicate (places + 1 - digits.length) '0' ++ digits
  let whole := filled.length - places
  filled.take whole ++ '.' :: filled.drop whole

/-- Plain notation, for an exponent that is not positive. -/
def plain (number : Decimal) : List Char :=
  if number.exponent = 0 then number.digits
  else withPoint number.digits (-number.exponent).toNat

/-- An integer with its sign always written. -/
def signedInteger (number : Int) : List Char :=
  (if number < 0 then '-' else '+') :: Nat.toDigits 10 number.natAbs

def scientific (number : Decimal) : List Char :=
  (match number.digits with
    | [] => []
    | [leading] => [leading]
    | leading :: fraction => leading :: '.' :: fraction)
    ++ 'E' :: signedInteger number.adjustedExponent

def isPlain (number : Decimal) : Bool :=
  number.exponent ≤ 0 && -6 ≤ number.adjustedExponent

def write (number : Decimal) : List Char :=
  (if number.negative then ['-'] else [])
    ++ if number.isPlain then number.plain else number.scientific

protected def toString (number : Decimal) : String :=
  String.ofList number.write

end Decimal

protected def ExtendedDecimal.toString : ExtendedDecimal → String
  | .finite number => number.toString
  | .infinite negative => (if negative then "-" else "") ++ "Infinity"
  | .nan negative signaling payload =>
    (if negative then "-" else "") ++ (if signaling then "s" else "") ++ "NaN"
      ++ if payload = 0 then "" else toString payload

end SlotLogic
