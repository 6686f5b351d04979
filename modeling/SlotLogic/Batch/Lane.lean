import SlotLogic.Evaluation.Basic

/-!
Contract: lanes, the entries of a batch for one row.

Owns: the faults of a batch, the lane, the lane of each sort of node, what is
composed of these for a tree, the ranking of the numbers of a batch, and the lane
of a datum.

A lane holds the sort of a value, its truth if it is a boolean, its rank if it is
a number, and the slot that it was taken from. Numbers never enter a lane
themselves: each is replaced by its rank among the distinct numbers of the batch,
and a number that is a result is found again through its slot. Both branches of
a choice have a lane, and one of the two is selected.

The lanes of slots and the ranks of numbers are looked up where they were
entered, and a look-up of what was not entered is a fault.

Does not own: rows.
-/

set_option autoImplicit false

namespace SlotLogic

open SlotLogic.Text

inductive BatchFault where
  | notValue (row : Nat) (slot : Int) (typeName : String)
  | rowCount (expected actual : Nat)
  | noSource (sort : Int)
  | noEntry (slot : Int)
  | noRank (number : Decimal)
deriving DecidableEq, Repr

def integerText (number : Int) : String :=
  String.ofList (writeInteger number)

/-- The wording of a batch fault. What was not found is named by its key alone. -/
def BatchFault.message : BatchFault → String
  | .notValue row slot typeName =>
    s!"row {row} slot {integerText slot} has unsupported runtime type {typeName}"
  | .rowCount expected actual => s!"expected {expected} rows, got {actual}"
  | .noSource sort => s!"number lane without a source slot (kind={integerText sort})"
  | .noEntry slot => integerText slot
  | .noRank number => s!"Decimal('{number.toString}')"

/-- One row's entry for one node. -/
structure Lane where
  sort : ValueSort
  flag : Bool
  rank : Nat
  source : Int
deriving DecidableEq, Repr

namespace Lane

/-- The source of a lane that was taken from no slot. -/
def noSource : Int := -1

def null : Lane :=
  ⟨.null, false, 0, noSource⟩

/-- The lane of a truth value, or of null where none is defined. -/
def truth (defined flag : Bool) : Lane :=
  ⟨if defined then .bool else .null, defined && flag, 0, noSource⟩

/-- The lane of a slot leaf: what the slot holds, marked by its index unless it
is null. -/
def ofSlot (index : Int) (held : Lane) : Lane :=
  { held with source := if held.sort = .null then noSource else index }

/-- Select a branch by the lane of a condition. -/
def select (test consequent alternative : Lane) : Lane :=
  let defined := test.sort == .bool
  if defined && test.flag then consequent
  else if defined && !test.flag then alternative
  -- A test that is no boolean selects neither branch.
  else null

end Lane

def Connective.lane (operator : Connective) (left right : Lane) : Lane :=
  .truth (left.sort == .bool && right.sort == .bool) (operator.combine left.flag right.flag)

def equalityLane (negated : Bool) (left right : Lane) : Lane :=
  let numbers := left.sort == .number && right.sort == .number
  let nulls := left.sort == .null && right.sort == .null
  let mixed := (left.sort == .number && right.sort == .null)
    || (left.sort == .null && right.sort == .number)
  let equal := if numbers then left.rank == right.rank else nulls
  .truth (numbers || nulls || mixed) (equal != negated)

def orderLane (holds : Nat → Nat → Bool) (left right : Lane) : Lane :=
  .truth (left.sort == .number && right.sort == .number) (holds left.rank right.rank)

def Comparison.lane (operator : Comparison) (left right : Lane) : Lane :=
  match operator with
  | .eq => equalityLane false left right
  | .ne => equalityLane true left right
  | .ge => orderLane (fun first second => second ≤ first) left right
  | .gt => orderLane (fun first second => second < first) left right
  | .le => orderLane (fun first second => first ≤ second) left right
  | .lt => orderLane (fun first second => first < second) left right

/-- What has a lane once the lanes of the slots are there to be looked up. -/
abbrev Lowered := (Int → Option Lane) → Except BatchFault Lane

/-- The lane of each sort of node, from the lanes of its children. -/
def lowerings : Tree.Table Lowered where
  null _ := return .null
  slot index slots :=
    match slots index with
    | some held => return .ofSlot index held
    | none => .error (.noEntry index)
  connect operator left right slots := do
    return operator.lane (← left slots) (← right slots)
  compare operator left right slots := do
    return operator.lane (← left slots) (← right slots)
  choose condition consequent alternative slots := do
    return .select (← condition slots) (← consequent slots) (← alternative slots)

/-- Compose the lane of a tree. -/
def Tree.lower {Foreign : Type} (tree : Tree Foreign) : Except Foreign Lowered :=
  tree.make lowerings

/-- Insert a number into a list of numbers that ascend by value. A number whose
value is there already is left out. -/
def insertByValue (number : Decimal) : List Decimal → List Decimal
  | [] => [number]
  | head :: tail =>
    match number.compareValue head with
    | .lt => number :: head :: tail
    | .eq => head :: tail
    | .gt => head :: insertByValue number tail

/-- The distinct numbers of a list, ascending by value. -/
def ranking (numbers : List Decimal) : List Decimal :=
  numbers.foldr insertByValue []

/-- The rank of a number: its place in the ranking. -/
def rank? (ranked : List Decimal) (number : Decimal) : Option Nat :=
  ranked.findIdx? number.same

/-- The lane of what a slot holds, before it is marked by the slot. -/
def Lane.ofDatum (ranked : List Decimal) : Datum → Except BatchFault Lane
  | .value (.number number) =>
    match rank? ranked number with
    | some rank => return ⟨.number, false, rank, noSource⟩
    | none => .error (.noRank number)
  | .value (.bool flag) => return ⟨.bool, flag, 0, noSource⟩
  | _ => return .null

end SlotLogic
