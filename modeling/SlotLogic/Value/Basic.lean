import SlotLogic.Decimal.Writer

/-!
Contract: the values of a statement.

Owns: the three sorts of values, their names, their texts and their equality.

A value is null, a boolean or a number. Two values are the same when they are of
one sort and equal in it; numbers are equal when they stand for one number,
however they are written.

Does not own: data that are not values.
-/

set_option autoImplicit false

namespace SlotLogic

inductive Value where
  | null
  | bool (flag : Bool)
  | number (decimal : Decimal)
deriving DecidableEq, Repr

inductive ValueSort where
  | null
  | bool
  | number
deriving DecidableEq, Repr

def ValueSort.name : ValueSort → String
  | .null => "null"
  | .bool => "bool"
  | .number => "number"

namespace Value

def sort : Value → ValueSort
  | null => .null
  | bool _ => .bool
  | number _ => .number

def line : Value → String
  | null => "Null"
  | bool flag => if flag then "Bool: true" else "Bool: false"
  | number decimal => "Number: " ++ decimal.toString

def shown : Value → String
  | null => "NullValue()"
  | bool flag => if flag then "BoolValue(value=True)" else "BoolValue(value=False)"
  | number decimal => s!"NumberValue(value=Decimal('{decimal.toString}'))"

def same : Value → Value → Bool
  | null, null => true
  | bool flag, bool other => flag == other
  | number decimal, number other => decimal.same other
  | _, _ => false

/-- A truth value, or null where there is none. -/
def ofTruth : Option Bool → Value
  | some flag => bool flag
  | none => null

end Value

end SlotLogic
