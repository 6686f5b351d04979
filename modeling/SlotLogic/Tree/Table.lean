import SlotLogic.Tree.Basic

/-!
Contract: what is made of a tree node by node.

Owns: tables with an entry for each sort of node, and the recursion that looks the nodes
of a tree up in a table.

The children of a node are made before the node, from left to right. No table has an entry
for a foreign leaf, so a tree that has one is refused for the first that is met.

Does not own: the tables.
-/

set_option autoImplicit false

namespace SlotLogic.Tree

variable {Foreign Result : Type}

/-- What is made of each sort of node, from what was made of its children. -/
structure Table (Result : Type) where
  null : Result
  slot : Int → Result
  connect : Connective → Result → Result → Result
  compare : Comparison → Result → Result → Result
  choose : Result → Result → Result → Result

/-- Make what a table says of a tree, or refuse a foreign leaf. -/
def make (table : Table Result) : Tree Foreign → Except Foreign Result
  | null => .ok table.null
  | slot index => .ok (table.slot index)
  | connect operator left right => do
    return table.connect operator (← left.make table) (← right.make table)
  | compare operator left right => do
    return table.compare operator (← left.make table) (← right.make table)
  | choose condition consequent alternative => do
    return table.choose (← condition.make table) (← consequent.make table)
      (← alternative.make table)
  | foreign leaf => .error leaf

end SlotLogic.Tree
