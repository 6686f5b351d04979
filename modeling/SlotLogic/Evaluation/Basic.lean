import SlotLogic.Tree.Table
import SlotLogic.Value.Datum

/-!
Contract: the value of a tree under what its slots hold.

Owns: the meaning of connectives and comparisons on data, the evaluation of each
sort of node with the slots that it reads, and the evaluation that is composed of
a tree.

The logic has three values. A connective is classical on two booleans and null
on everything else. Equality is decided between numbers, between nulls, and
between a number and null, which differ; the order comparisons are decided
between numbers only; where a comparison is not decided it is null. A choice
takes a branch on a boolean and is null on everything else.

Every operand is evaluated, from left to right, whatever the others are. Of the
branches of a choice only the one taken is evaluated. Data that are no values
may stand in a slot: they are passed on as results and decide nothing.

An evaluation is composed of a tree once, before any slot is read, and is used
without the tree.

Does not own: rows, and the trees of texts.
-/

set_option autoImplicit false

namespace SlotLogic

/-- The classical meaning of a connective. -/
def Connective.combine : Connective → Bool → Bool → Bool
  | .and, left, right => left && right
  | .or, left, right => left || right

def Connective.apply (operator : Connective) : Datum → Datum → Value
  | .value (.bool left), .value (.bool right) => .bool (operator.combine left right)
  | _, _ => .null

/-- Whether two data are equal, where that is decided. -/
def equality? : Datum → Datum → Option Bool
  | .value (.number left), .value (.number right) => some (left.same right)
  | .value (.number _), .value .null => some false
  | .value .null, .value (.number _) => some false
  | .value .null, .value .null => some true
  | _, _ => none

/-- How two data are ordered, where that is decided. -/
def order? : Datum → Datum → Option Ordering
  | .value (.number left), .value (.number right) => some (left.compareValue right)
  | _, _ => none

def Comparison.apply (operator : Comparison) (left right : Datum) : Value :=
  .ofTruth <|
    match operator with
    | .eq => equality? left right
    | .ne => (equality? left right).map (!·)
    | .ge => (order? left right).map Ordering.isGE
    | .gt => (order? left right).map Ordering.isGT
    | .le => (order? left right).map Ordering.isLE
    | .lt => (order? left right).map Ordering.isLT

/-- A finished evaluation: its result, and the slots that it asked for in
order. -/
structure Evaluation where
  result : Datum
  reads : List Int
deriving Repr

/-- What is evaluated once it is known what the slots hold. -/
abbrev Evaluator := (Int → Datum) → Evaluation

/-- The evaluation of each sort of node, from the evaluations of its children. -/
def evaluations : Tree.Table Evaluator where
  null _ := ⟨.value .null, []⟩
  slot index slots := ⟨slots index, [index]⟩
  connect operator left right slots :=
    let first := left slots
    let second := right slots
    ⟨.value (operator.apply first.result second.result), first.reads ++ second.reads⟩
  compare operator left right slots :=
    let first := left slots
    let second := right slots
    ⟨.value (operator.apply first.result second.result), first.reads ++ second.reads⟩
  choose condition consequent alternative slots :=
    let test := condition slots
    match test.result with
    | .value (.bool flag) =>
      let taken := if flag then consequent slots else alternative slots
      ⟨taken.result, test.reads ++ taken.reads⟩
    | _ => ⟨.value .null, test.reads⟩

/-- Compose the evaluation of a tree. -/
def Tree.compile {Foreign : Type} (tree : Tree Foreign) : Except Foreign Evaluator :=
  tree.make evaluations

end SlotLogic
