import SlotLogic.Decimal.Binary
import SlotLogic.Decimal.Reader
import SlotLogic.Tree.Basic
import SlotLogic.Value.Basic

/-!
Contract: data that callers hand over, and which of them are values.

Owns: the sorts of data with their names, equality of data, the conversion of
data to numbers, booleans and values, the demand that a datum is a value
already, and the faults of both with their wording.

Integers, finite decimals and texts that spell finite decimals become numbers;
booleans become booleans and the missing datum becomes null. A binary floating
point number is refused, because what it was meant to be cannot be told from it.
It is held by the shortest decimal that names it, and compared as the number
that is named.

Does not own: rows of data.
-/

set_option autoImplicit false

namespace SlotLogic

open SlotLogic.Text

inductive Datum where
  | none
  | bool (flag : Bool)
  | integer (number : Int)
  | binary (shortest : Decimal)
  | text (spelling : String)
  | decimal (number : ExtendedDecimal)
  | value (held : Value)
  | list (items : List Datum)
  | record (entries : List (String × Datum))
deriving Repr

namespace Datum

def typeName : Datum → String
  | none => "NoneType"
  | bool _ => "bool"
  | integer _ => "int"
  | binary _ => "float"
  | text _ => "str"
  | decimal _ => "Decimal"
  | value .null => "NullValue"
  | value (.bool _) => "BoolValue"
  | value (.number _) => "NumberValue"
  | list _ => "list"
  | record _ => "dict"

instance : TypeNamed Datum where
  typeName := typeName

/-- The datum as a value, if it is one already. -/
def value? : Datum → Option Value
  | value held => some held
  | _ => Option.none

/-- The number that a plain numeric datum stands for. A truth value counts as
one or zero. -/
def numeric? : Datum → Option Decimal
  | bool flag => some (Decimal.ofInt flag.toInt)
  | integer number => some (Decimal.ofInt number)
  | binary shortest => some shortest.nearestBinary
  | decimal (.finite number) => some number
  | _ => Option.none

mutual

/-- Whether two data are equal. Numbers of different sorts are compared by
value, and records without regard to the order of their entries. -/
def same : Datum → Datum → Bool
  | none, none => true
  | text spelling, text other => spelling == other
  | decimal (.infinite negative), decimal (.infinite other) => negative == other
  | value held, value other => held.same other
  | list items, list others => sameItems items others
  | record entries, record others =>
    entries.length == others.length && sameEntries entries others
  | left, right =>
    match left.numeric?, right.numeric? with
    | some number, some other => number.same other
    | _, _ => false

def sameItems : List Datum → List Datum → Bool
  | [], [] => true
  | item :: items, other :: others => same item other && sameItems items others
  | _, _ => false

/-- Whether every entry has an equal entry of its name in another record. -/
def sameEntries : List (String × Datum) → List (String × Datum) → Bool
  | [], _ => true
  | (name, datum) :: entries, others =>
    (match others.lookup name with
      | some other => same datum other
      | Option.none => false)
      && sameEntries entries others

end

/-- Whether a datum is compared with other data by its number. -/
def isNumeric : Datum → Bool
  | bool _ | integer _ | binary _ | decimal _ => true
  | none | text _ | value _ | list _ | record _ => false

/-- Whether a datum is a NaN that refuses to be compared with a number. -/
def isSignaling : Datum → Bool
  | decimal (.nan _ signaling _) => signaling
  | _ => false

mutual

/-- Whether a comparison of two data is refused: one of two numbers is a
signaling NaN. Items of lists are compared up to the first that differ. -/
def refusesComparison : Datum → Datum → Bool
  | list items, list others => items.length == others.length && refusesItems items others
  | left, right =>
    (left.isSignaling && right.isNumeric) || (left.isNumeric && right.isSignaling)

def refusesItems : List Datum → List Datum → Bool
  | item :: items, other :: others =>
    refusesComparison item other || (same item other && refusesItems items others)
  | _, _ => false

end

end Datum

inductive MembershipFault where
  | collection (typeName : String)
  | signalingNan
deriving DecidableEq, Repr

def MembershipFault.message : MembershipFault → String
  | .collection typeName => s!"unhashable type: '{typeName}'"
  | .signalingNan => "Cannot hash a signaling NaN value"

/-- What keeps a datum out of a set: it holds other data, or it is equal to
nothing and says so. -/
def Datum.membershipFault? (datum : Datum) : Option MembershipFault :=
  match datum with
  | .list _ | .record _ => some (.collection datum.typeName)
  | .decimal (.nan _ true _) => some .signalingNan
  | _ => Option.none

/-- The number of data that differ from all earlier ones. -/
def countDistinct {α : Type} (same : α → α → Bool) (items : List α) : Nat :=
  (items.foldl (fun kept item => if kept.any (same item) then kept else item :: kept) []).length

inductive ConversionFault where
  | inexact (typeName : String)
  | unreadable (text : String)
  | notNumeric (typeName : String)
  | notFinite (shown : String)
  | notBoolean (typeName : String)
deriving DecidableEq, Repr

def ConversionFault.message : ConversionFault → String
  | .inexact typeName => s!"NumberValue expects an exact number, got {typeName}"
  | .unreadable text => s!"NumberValue cannot parse {quote text}"
  | .notNumeric typeName => s!"NumberValue expects Decimal, int or str, got {typeName}"
  | .notFinite shown => s!"NumberValue must be finite, got {shown}"
  | .notBoolean typeName => s!"BoolValue expects bool, got {typeName}"

/-- The place that a message names where the caller names none. -/
def defaultPlace : String := "value"

/-- The wording of a conversion fault with the place of the datum before it. -/
def ConversionFault.messageAt (place : String) (fault : ConversionFault) : String :=
  s!"{place}: {fault.message}"

/-- A datum that is no value where only values are taken, by the name of its sort. -/
structure UnsupportedType where
  typeName : String
deriving DecidableEq, Repr

def UnsupportedType.message (fault : UnsupportedType) : String :=
  s!"unsupported runtime type {fault.typeName}"

/-- The wording for a datum whose place is known. -/
def UnsupportedType.messageAt (place : String) (fault : UnsupportedType) : String :=
  s!"{place} has {fault.message}"

namespace Datum

/-- The finite decimal that a datum gives. -/
def toDecimal (datum : Datum) : Except ConversionFault Decimal :=
  match datum with
  | decimal (.finite number) => .ok number
  | decimal number => .error (.notFinite s!"Decimal('{number.toString}')")
  | bool _ | binary _ => .error (.inexact datum.typeName)
  | integer number => .ok (Decimal.ofInt number)
  | text spelling =>
    match ExtendedDecimal.read spelling.toList with
    | some (.finite number) => .ok number
    | some _ => .error (.notFinite (quote spelling))
    | Option.none => .error (.unreadable spelling)
  | none | value _ | list _ | record _ => .error (.notNumeric datum.typeName)

def toNumber (datum : Datum) : Except ConversionFault Value :=
  datum.toDecimal.map .number

/-- The boolean that a datum is, as a value. -/
def toBoolean : Datum → Except ConversionFault Value
  | bool flag => .ok (.bool flag)
  | datum => .error (.notBoolean datum.typeName)

/-- The value that a datum gives: itself if it is one, null for the missing
datum, a boolean for a boolean, and otherwise a number. -/
def toValue : Datum → Except ConversionFault Value
  | value held => .ok held
  | none => .ok .null
  | bool flag => .ok (.bool flag)
  | datum => datum.toNumber

/-- The value that a datum is already. -/
def demandValue (datum : Datum) : Except UnsupportedType Value :=
  match datum.value? with
  | some held => .ok held
  | Option.none => .error ⟨datum.typeName⟩

/-- The sort of the value that a datum is. -/
def sort (datum : Datum) : Except UnsupportedType ValueSort :=
  datum.demandValue.map Value.sort

end Datum

end SlotLogic
