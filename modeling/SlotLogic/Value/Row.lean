import SlotLogic.Token.Basic
import SlotLogic.Value.Datum

/-!
Contract: rows of data by key, and assignments of values to slots.

Owns: keys and their equality and text, rows with the order of their keys, the
datum that a row holds for a slot, assignments, and the faults of making one.

A row keeps each key once, at the place where it first came, with the datum that
came last. An assignment is a row whose keys are indices of slots and whose data
are values. It is made pair by pair, the key before the datum, so its fault is
about the first pair that breaks a rule.

Does not own: the conversion of one datum.
-/

set_option autoImplicit false

namespace SlotLogic

open SlotLogic.Text

inductive Key where
  | none
  | bool (flag : Bool)
  | integer (number : Int)
  | binary (shortest : Decimal)
  | text (spelling : String)
deriving DecidableEq, Repr

namespace Key

/-- The number that a numeric key stands for. -/
def numeric? : Key → Option Decimal
  | bool flag => some (Decimal.ofInt flag.toInt)
  | integer number => some (Decimal.ofInt number)
  | binary shortest => some shortest.nearestBinary
  | none | text _ => Option.none

/-- Whether two keys are equal; numeric keys are compared by value. -/
def same : Key → Key → Bool
  | none, none => true
  | text spelling, text other => spelling == other
  | integer number, integer other => number == other
  | left, right =>
    match left.numeric?, right.numeric? with
    | some number, some other => number.same other
    | _, _ => false

def shown : Key → String
  | none => "None"
  | bool flag => if flag then "True" else "False"
  | integer number => String.ofList (writeInteger number)
  | binary shortest => String.ofList shortest.binaryText
  | text spelling => quote spelling

/-- The index of a slot that a key is. Truth values are none. -/
def index? : Key → Option Nat
  | integer number =>
    if 0 ≤ number ∧ number ≤ greatestIndex then some number.toNat else Option.none
  | none | bool _ | binary _ | text _ => Option.none

end Key

/-- Data by key, in the order in which the keys first came. -/
abbrev Row := List (Key × Datum)

namespace Row

def insert (row : Row) (key : Key) (datum : Datum) : Row :=
  match row with
  | [] => [(key, datum)]
  | (head, held) :: tail =>
    if head.same key then (head, datum) :: tail else (head, held) :: insert tail key datum

def ofPairs (pairs : List (Key × Datum)) : Row :=
  pairs.foldl (fun row pair => row.insert pair.1 pair.2) []

def find? (row : Row) (key : Key) : Option Datum :=
  (List.find? (fun pair => pair.1.same key) row).map Prod.snd

/-- The datum under the key of a slot, if there is one. -/
def slot? (row : Row) (index : Int) : Option Datum :=
  row.find? (.integer index)

/-- The datum that a slot reads as: null where there is none. -/
def read (row : Row) (index : Int) : Datum :=
  (row.slot? index).getD (.value .null)

end Row

/-- Values by slot index, in the order in which they were assigned. -/
structure Assignment where
  entries : List (Nat × Value)
deriving DecidableEq, Repr

inductive AssignmentFault where
  | badKey (key : Key)
  | badDatum (index : Nat) (fault : ConversionFault)
deriving DecidableEq, Repr

def AssignmentFault.message : AssignmentFault → String
  | .badKey key =>
    s!"slot index must be an integer in 0..{greatestIndex}, got {key.shown}"
  | .badDatum index fault => fault.messageAt s!"slot {index}"

namespace Assignment

/-- One entry of an assignment from one pair of a row. -/
def entryOf (pair : Key × Datum) : Except AssignmentFault (Nat × Value) :=
  match pair.1.index? with
  | none => .error (.badKey pair.1)
  | some index =>
    match pair.2.toValue with
    | .ok value => .ok (index, value)
    | .error fault => .error (.badDatum index fault)

def ofRow : Row → Except AssignmentFault Assignment
  | [] => .ok ⟨[]⟩
  | pair :: rest => do
    let entry ← entryOf pair
    let assigned ← ofRow rest
    return ⟨entry :: assigned.entries⟩

def toRow (assignment : Assignment) : Row :=
  assignment.entries.map fun entry => (.integer entry.1, .value entry.2)

def find? (assignment : Assignment) (key : Key) : Option Value :=
  (assignment.entries.find? fun entry => (Key.integer entry.1).same key).map Prod.snd

def shown (assignment : Assignment) : String :=
  let entries := assignment.entries.map fun entry => s!"{entry.1}: {entry.2.shown}"
  "IndexedValues(\x7b" ++ ", ".intercalate entries ++ "\x7d)"

end Assignment

end SlotLogic
