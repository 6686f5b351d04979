/-!
Contract: exact decimal numbers and their order.

Owns: the finite decimal with its written form kept (sign, coefficient,
exponent), the decimals that are not finite, the range of exponents that can be
held, and comparison by mathematical value.

A decimal stands for `coefficient * 10 ^ exponent`, negated when `negative`.
Several decimals may stand for one number: `1.0` and `1`, or `-0` and `0`.
Comparison never writes out a power of ten for an exponent of its own: two
magnitudes with different leading places are told apart by those places, and
with equal leading places the exponents differ by no more than the coefficients
differ in length.

Does not own: the text of a decimal.
-/

set_option autoImplicit false

namespace SlotLogic

/-- A finite decimal number in one of its written forms. -/
structure Decimal where
  negative : Bool
  coefficient : Nat
  exponent : Int
deriving DecidableEq, Repr, Inhabited

namespace Decimal

def ofInt (number : Int) : Decimal :=
  ⟨number < 0, number.natAbs, 0⟩

/-- The number of digits of the coefficient; zero has one digit. -/
def digitCount (number : Decimal) : Nat :=
  (Nat.toDigits 10 number.coefficient).length

/-- The exponent of the leading digit. -/
def adjustedExponent (number : Decimal) : Int :=
  number.exponent + number.digitCount - 1

/-- The greatest exponent that a leading digit, or a zero, may have. -/
def greatestExponent : Int := 999999999999999999

/-- The least exponent that a decimal may have. -/
def leastExponent : Int := -1999999999999999997

def isRepresentable (number : Decimal) : Bool :=
  leastExponent ≤ number.exponent
    && (if number.coefficient = 0 then number.exponent else number.adjustedExponent)
      ≤ greatestExponent

/-- The sign of the number that is stood for; both zeros have sign `0`. -/
def sign (number : Decimal) : Int :=
  if number.coefficient = 0 then 0 else if number.negative then -1 else 1

/-- Compare two coefficients at the lower of two exponents. -/
def compareAligned (left right : Decimal) : Ordering :=
  let lower := min left.exponent right.exponent
  compare (left.coefficient * Nat.pow 10 (left.exponent - lower).toNat)
    (right.coefficient * Nat.pow 10 (right.exponent - lower).toNat)

/-- Compare two magnitudes that are not zero. -/
def compareMagnitude (left right : Decimal) : Ordering :=
  match compare left.adjustedExponent right.adjustedExponent with
  | .eq => compareAligned left right
  | decided => decided

def compareValue (left right : Decimal) : Ordering :=
  match compare left.sign right.sign with
  | .eq =>
    if left.sign = 0 then .eq
    else if left.sign = 1 then compareMagnitude left right
    else compareMagnitude right left
  | decided => decided

def same (left right : Decimal) : Bool :=
  left.compareValue right == .eq

def less (left right : Decimal) : Bool :=
  left.compareValue right == .lt

end Decimal

/-- A decimal that need not be finite. -/
inductive ExtendedDecimal where
  | finite (number : Decimal)
  | infinite (negative : Bool)
  | nan (negative signaling : Bool) (payload : Nat)
deriving DecidableEq, Repr

end SlotLogic
