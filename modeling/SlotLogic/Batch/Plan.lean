import SlotLogic.Batch.Lane
import SlotLogic.Evaluation.Plan

/-!
Contract: evaluation of one tree on many rows at once.

Owns: the batch plan and its log, the check of the rows, the lanes of their slots,
the result of a run as columns of lanes, and the decoding of a result against rows.

Before anything is computed, every slot of the tree must hold a value in every
row; the first that does not, row by row and then by slot, is reported.
The ranks of numbers are shared by all rows and slots of a run. A batch of no
rows is not checked and has an empty result.

A result is decoded against as many rows as it has lanes. A lane that has a
source is the datum that its row holds there, in the form that it has there.

Does not own: the operations on lanes.
-/

set_option autoImplicit false

namespace SlotLogic

open SlotLogic.Text

/-- The number by which a sort stands in a column. -/
def ValueSort.code : ValueSort → Int
  | .null => 0
  | .bool => 1
  | .number => 2

/-- The lanes of a run in columns, one entry for each row. -/
structure Columns where
  sorts : List Int
  flags : List Bool
  sources : List Int
deriving DecidableEq, Repr

namespace Columns

def ofLanes (lanes : List Lane) : Columns :=
  { sorts := lanes.map fun lane => lane.sort.code
    flags := lanes.map Lane.flag
    sources := lanes.map Lane.source }

def size (columns : Columns) : Nat :=
  columns.sorts.length

def decodeLane (row : Row) (sort : Int) (flag : Bool) (source : Int) : Except BatchFault Datum :=
  if sort = ValueSort.null.code then .ok (.value .null)
  else if 0 ≤ source then
    match row.slot? source with
    | some datum => .ok datum
    | none => .error (.noEntry source)
  -- Only a boolean can be computed; every other lane that is not null has a source.
  else if sort = ValueSort.bool.code then .ok (.value (.bool flag))
  else .error (.noSource sort)

/-- Decode columns against rows, as far as the shortest of them goes. -/
def decodeLanes : List Row → List Int → List Bool → List Int → Except BatchFault (List Datum)
  | row :: rows, sort :: sorts, flag :: flags, source :: sources => do
    let datum ← decodeLane row sort flag source
    let data ← decodeLanes rows sorts flags sources
    return datum :: data
  | _, _, _, _ => .ok []

def decode (columns : Columns) (rows : List Row) : Except BatchFault (List Datum) :=
  if rows.length = columns.size then
    decodeLanes rows columns.sorts columns.flags columns.sources
  else .error (.rowCount columns.size rows.length)

end Columns

/-- A batch plan: its tree, the text that it was read from, whether it was asked
for in compiled form, and the lane that is composed of the tree. -/
structure BatchPlan where
  root : Tree Datum
  source? : Option String
  compiled : Bool
  lane : Lowered
  composed : root.lower = .ok lane

namespace BatchPlan

def slots (plan : BatchPlan) : List Int :=
  plan.root.slots

def record (plan : BatchPlan) : LogRecord :=
  { channel := .batch
    message := s!"Lowered batch evaluator over slots {slotTuple plan.slots} (jit="
      ++ (if plan.compiled then "True)" else "False)") }

def compose (compiled : Bool) (source? : Option String) (root : Tree Datum) :
    Except BuildFault BatchPlan :=
  match composed : root.lower with
  | .ok lane => .ok ⟨root, source?, compiled, lane, composed⟩
  | .error leaf => .error (.foreignLeaf leaf)

def build (lenient compiled : Bool) (subject : Subject) : Logged BuildFault BatchPlan :=
  (subject.root lenient).build (compose compiled subject.source?) record

def faultAt (position : Nat) (row : Row) (slot : Int) : Option BatchFault :=
  match (row.read slot).value? with
  | some _ => none
  | none => some (.notValue position slot (row.read slot).typeName)

/-- The first fault of some rows, row by row and then by slot. -/
def firstFault (slots : List Int) (position : Nat) : List Row → Option BatchFault
  | [] => none
  | row :: rows =>
    (slots.findSome? (faultAt position row)).or (firstFault slots (position + 1) rows)

def number? : Datum → Option Decimal
  | .value (.number number) => some number
  | _ => none

def numbers (slots : List Int) (rows : List Row) : List Decimal :=
  rows.flatMap fun row => slots.filterMap fun slot => number? (row.read slot)

/-- The lanes of the slots of a row, by slot. -/
def encodeRow (ranked : List Decimal) (row : Row) : List Int → Except BatchFault (List (Int × Lane))
  | [] => return []
  | slot :: slots => do
    let held ← Lane.ofDatum ranked (row.read slot)
    let entries ← encodeRow ranked row slots
    return (slot, held) :: entries

/-- The lane of a row, by way of the lanes of its slots. -/
def laneOf (plan : BatchPlan) (ranked : List Decimal) (row : Row) : Except BatchFault Lane := do
  let entries ← encodeRow ranked row plan.slots
  plan.lane fun slot => entries.lookup slot

def lanes (plan : BatchPlan) (rows : List Row) : Except BatchFault (List Lane) :=
  rows.mapM (plan.laneOf (ranking (numbers plan.slots rows)))

def run (plan : BatchPlan) (rows : List Row) : Except BatchFault Columns :=
  match firstFault plan.slots 0 rows with
  | some fault => .error fault
  | none => (plan.lanes rows).map .ofLanes

/-- Run a batch and decode its result against the same rows. -/
def values (plan : BatchPlan) (rows : List Row) : Except BatchFault (List Datum) := do
  (← plan.run rows).decode rows

end BatchPlan

end SlotLogic
