import SlotLogic.Tree.Basic
import SlotLogic.Text.Integer

/-!
Contract: the drawing of a tree, one line for each node.

Owns: the connectors, the line of each node, and the extra line with the index
of a slot.

A line consists of what its ancestors demand and of the label of its node. Under
a child that has a later sibling the vertical connector goes on; under the last
child there are blanks. The lines are joined by line feeds, with none at either
end. A tree with an index that is too long to be written has no drawing.

Does not own: the labels.
-/

set_option autoImplicit false

namespace SlotLogic.Tree

open SlotLogic.Text

variable {Foreign : Type}

/-- The connector before a child that has a later sibling. -/
def branch : List Char := ['├', '─', ' ']

/-- What continues a branch below. -/
def trunk : List Char := ['│', ' ', ' ']

/-- The connector before the last child. -/
def corner : List Char := ['└', '─', ' ']

/-- What stands below a corner. -/
def gap : List Char := [' ', ' ', ' ']

/-- The lines of a tree. The first starts with `lead`, the others with `margin`. -/
def drawLines [TypeNamed Foreign] (lead margin : List Char) :
    Tree Foreign → Except OverlongInteger (List (List Char))
  | null => return [lead ++ (null : Tree Foreign).label.toList]
  | foreign leaf => return [lead ++ (foreign leaf).label.toList]
  | slot index => do
    let digits ← printInteger index
    return [lead ++ (slot index : Tree Foreign).label.toList,
      margin ++ corner ++ ['\x60'] ++ digits ++ ['\x60']]
  | connect operator left right => do
    let upper ← drawLines (margin ++ branch) (margin ++ trunk) left
    let lower ← drawLines (margin ++ corner) (margin ++ gap) right
    return (lead ++ operator.label.toList) :: (upper ++ lower)
  | compare operator left right => do
    let upper ← drawLines (margin ++ branch) (margin ++ trunk) left
    let lower ← drawLines (margin ++ corner) (margin ++ gap) right
    return (lead ++ operator.label.toList) :: (upper ++ lower)
  | choose condition consequent alternative => do
    let upper ← drawLines (margin ++ branch) (margin ++ trunk) condition
    let middle ← drawLines (margin ++ branch) (margin ++ trunk) consequent
    let lower ← drawLines (margin ++ corner) (margin ++ gap) alternative
    return (lead ++ (choose condition consequent alternative).label.toList)
      :: (upper ++ middle ++ lower)

def draw [TypeNamed Foreign] (tree : Tree Foreign) : Except OverlongInteger (List Char) := do
  return ['\n'].intercalate (← tree.drawLines [] [])

end SlotLogic.Tree
