import SlotLogic.Decimal.Writer

/-!
Contract: binary floating point numbers that are named by a decimal.

Owns: the number that a decimal names, and how the shortest decimal that names
it is written.

A binary number has 53 bits, the last of which stands at `2 ^ -1074` or higher.
A decimal names the one nearest to it, and of two at one distance the one whose
last bit is zero.

Positional notation is used for leading digits from `10 ^ -4` up to `10 ^ 15`,
with at least one digit after the point. Elsewhere the exponent is written after
`e`, with its sign and at least two digits.

Does not own: finding the shortest decimal.
-/

set_option autoImplicit false

namespace SlotLogic.Decimal

/-- The number of bits after the leading one. -/
def trailingBits : Int := 52

/-- The least place at which a last bit may stand. -/
def leastPlace : Int := -1074

/-- The quotient of two numbers, rounded to the nearest and in the middle to the
even one. -/
def roundedQuotient (numerator denominator : Nat) : Nat :=
  let quotient := numerator / denominator
  match compare (2 * (numerator % denominator)) denominator with
  | .lt => quotient
  | .eq => quotient + quotient % 2
  | .gt => quotient + 1

/-- The place of the leading bit of a quotient that is not zero. -/
def leadingPlace (numerator denominator : Nat) : Int :=
  let upper : Int := Nat.log2 numerator - Nat.log2 denominator
  if denominator * Nat.pow 2 upper.toNat ≤ numerator * Nat.pow 2 (-upper).toNat then upper
  else upper - 1

/-- The binary floating point number that a decimal names, as a decimal that is
equal to it. -/
def nearestBinary (number : Decimal) : Decimal :=
  let numerator := number.coefficient * Nat.pow 10 number.exponent.toNat
  let denominator := Nat.pow 10 (-number.exponent).toNat
  let place := max (leadingPlace numerator denominator - trailingBits) leastPlace
  let bits := roundedQuotient (numerator * Nat.pow 2 (-place).toNat)
    (denominator * Nat.pow 2 place.toNat)
  ⟨number.negative, bits * Nat.pow 2 place.toNat * Nat.pow 5 (-place).toNat, min place 0⟩

/-- Drop the zeros at the end of the digits. -/
def significantDigits (number : Decimal) : List Char :=
  (number.digits.reverse.dropWhile (· == '0')).reverse

/-- Positional notation with a point, for digits that start at an exponent. -/
def positional (digits : List Char) (leading : Int) : List Char :=
  if leading < 0 then
    '0' :: '.' :: List.replicate (-leading - 1).toNat '0' ++ digits
  else
    let whole := leading.toNat + 1
    let filled := digits ++ List.replicate (whole + 1 - digits.length) '0'
    filled.take whole ++ '.' :: filled.drop whole

def exponential (digits : List Char) (leading : Int) : List Char :=
  let exponent := Nat.toDigits 10 leading.natAbs
  (match digits with
    | [] => []
    | [only] => [only]
    | first :: rest => first :: '.' :: rest)
    ++ 'e' :: (if leading < 0 then '-' else '+')
      :: List.replicate (2 - exponent.length) '0' ++ exponent

/-- The text of the binary floating point number that a decimal names. -/
def binaryText (number : Decimal) : List Char :=
  (if number.negative then ['-'] else [])
    ++ if number.coefficient = 0 then ['0', '.', '0']
      else
        let digits := number.significantDigits
        let leading := number.adjustedExponent
        if -4 ≤ leading ∧ leading ≤ 15 then positional digits leading
        else exponential digits leading

end SlotLogic.Decimal
