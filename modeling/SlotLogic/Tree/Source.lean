import SlotLogic.Tree.Basic
import SlotLogic.Text.Integer

/-!
Contract: the canonical text of a tree.

Owns: the spelling of each node, the operands of a connective that stand in
parentheses, and what keeps a tree from having a text, with its wording.

Conditions are read with `and` binding tighter than `or` and with chains folding
to the left. So an operand is enclosed exactly where it would otherwise be taken
apart: a disjunction under `and` or on the right of `or`, and a conjunction on
the right of `and`. Nothing else is enclosed. A foreign leaf has no text, nor has
a slot whose index is too long to be written; the first such leaf from the left
is reported.

Does not own: the reader of statements.
-/

set_option autoImplicit false

namespace SlotLogic

open SlotLogic.Text

def Comparison.spelling : Comparison → List Char
  | .eq => ['=']
  | .ne => ['<', '>']
  | .ge => ['>', '=']
  | .gt => ['>']
  | .le => ['<', '=']
  | .lt => ['<']

/-- The spelling of a connective, with the blanks around it. -/
def Connective.spelling : Connective → List Char
  | .and => [' ', 'a', 'n', 'd', ' ']
  | .or => [' ', 'o', 'r', ' ']

namespace Tree

variable {Foreign : Type}

/-- The side of a connective on which an operand stands. -/
inductive Side where
  | left
  | right
deriving DecidableEq, Repr

/-- Whether an operand of a connective stands in parentheses. -/
def isEnclosed (parent : Connective) (side : Side) : Tree Foreign → Bool
  -- A chain folds to the left, so on the left a chain of the same connective stands open.
  | connect .or _ _ => parent == .and || side == .right
  | connect .and _ _ => parent == .and && side == .right
  | _ => false

def enclose (enclosed : Bool) (text : List Char) : List Char :=
  if enclosed then '(' :: text ++ [')'] else text

/-- What has no canonical text. -/
inductive SourceFault (Foreign : Type) where
  | foreignLeaf (leaf : Foreign)
  | overlongIndex (index : OverlongInteger)

def SourceFault.message [TypeNamed Foreign] : SourceFault Foreign → String
  | .foreignLeaf leaf => foreignMessage leaf
  | .overlongIndex index => index.message

/-- The canonical text of a tree, or its first leaf that has none. -/
def source : Tree Foreign → Except (SourceFault Foreign) (List Char)
  | null => .ok ['n', 'u', 'l', 'l']
  | slot index => (printInteger index).mapError .overlongIndex
  | choose condition consequent alternative => do
    let condition ← condition.source
    let consequent ← consequent.source
    let alternative ← alternative.source
    return ['i', 'f', '('] ++ condition ++ [';'] ++ consequent ++ [';'] ++ alternative ++ [')']
  | connect operator left right => do
    let leftText ← left.source
    let rightText ← right.source
    return enclose (left.isEnclosed operator .left) leftText ++ operator.spelling
      ++ enclose (right.isEnclosed operator .right) rightText
  | compare operator left right => do
    let leftText ← left.source
    let rightText ← right.source
    return leftText ++ operator.spelling ++ rightText
  | foreign leaf => .error (.foreignLeaf leaf)

end Tree

end SlotLogic
