import SlotLogic.Text.Blank
import SlotLogic.Text.Digit
import SlotLogic.Text.Quoted

/-!
Contract: integers written as text, in numerals of bounded length.

Owns: the greatest number of digits a numeral may have, the two faults of a
numeral, their wording, the reader and the writer of signed integers, and the
writer that keeps to the limit with its fault.

An integer is read between margins as an optional sign and decimal digits of any
script; one underscore may stand between two digits. The length of the numeral is
judged before what follows it. An integer is written in ASCII digits without
separators; the limit counts its digits and not its sign.

Does not own: the numerals of statements, which bring no sign and no underscore.
-/

set_option autoImplicit false

namespace SlotLogic.Text

/-- The greatest number of digits of a numeral that is converted to a number. -/
def digitLimit : Nat := 4300

/-- A numeral with more digits than are converted. -/
structure OverlongNumeral where
  digits : Nat
deriving DecidableEq, Repr

def OverlongNumeral.message (fault : OverlongNumeral) : String :=
  s!"Exceeds the limit ({digitLimit} digits) for integer string conversion: value has "
    ++ s!"{fault.digits} digits; use sys.set_int_max_str_digits() to increase the limit"

inductive IntegerFault where
  | malformed (text : List Char)
  | overlong (numeral : OverlongNumeral)
deriving DecidableEq, Repr

/-- The greatest number of characters of a quoted text that a message shows. -/
def shownLimit : Nat := 200

def IntegerFault.message : IntegerFault → String
  | .malformed text =>
    "invalid literal for int() with base 10: " ++ String.ofList ((quoted text).take shownLimit)
  | .overlong numeral => numeral.message

/-- Split an optional sign off a text: whether it is a minus, and the rest. -/
def takeSign : List Char → Bool × List Char
  | '-' :: rest => (true, rest)
  | '+' :: rest => (false, rest)
  | rest => (false, rest)

/-- Digits with single underscores between them, and the rest. An underscore
that no digit follows is left in the rest. -/
def takeGroupedDigits : List Char → List Nat × List Char
  | [] => ([], [])
  | [c] => takeDigits [c]
  | c :: separator :: rest =>
    match digitValue? c with
    | none => ([], c :: separator :: rest)
    | some value =>
      if separator = '_' then
        match takeGroupedDigits rest with
        | ([], _) => ([value], separator :: rest)
        | (digits, unread) => (value :: digits, unread)
      else
        match takeGroupedDigits (separator :: rest) with
        | (digits, unread) => (value :: digits, unread)

def readInteger (text : List Char) : Except IntegerFault Int :=
  let (negative, unsigned) := takeSign (trim isMargin text)
  let (digits, rest) := takeGroupedDigits unsigned
  if digits.isEmpty || rest.head? == some '_' then .error (.malformed text)
  else if digitLimit < digits.length then .error (.overlong ⟨digits.length⟩)
  else if !rest.isEmpty then .error (.malformed text)
  else .ok (if negative then -(digitsValue digits : Int) else digitsValue digits)

/-- Write an integer: its digits, after a minus if it is negative. -/
def writeInteger (number : Int) : List Char :=
  (if number < 0 then ['-'] else []) ++ Nat.toDigits 10 number.natAbs

/-- An integer with more digits than are written. -/
structure OverlongInteger where
  number : Int
deriving DecidableEq, Repr

/-- The wording does not tell the number of digits, as none have been written. -/
def OverlongInteger.message (_ : OverlongInteger) : String :=
  s!"Exceeds the limit ({digitLimit} digits) for integer string conversion; "
    ++ "use sys.set_int_max_str_digits() to increase the limit"

def overlong? (number : Int) : Option OverlongInteger :=
  if digitLimit < (Nat.toDigits 10 number.natAbs).length then some ⟨number⟩ else none

/-- Write an integer within the limit of digits. -/
def printInteger (number : Int) : Except OverlongInteger (List Char) :=
  match overlong? number with
  | some fault => .error fault
  | none => .ok (writeInteger number)

end SlotLogic.Text
