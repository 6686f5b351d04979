/-!
Contract: the trees of statements.

Owns: the two connectives, the six comparisons, the tree with its leaves and
branches, the wording for a foreign leaf, the children of a node, the pre-order walk and
the slots that a tree names.

A tree is taken over a type of foreign leaves, things that stand where a node
should. An expression is a tree over the empty type: it has no foreign leaf at
all. A slot leaf may hold any integer; only a reader of statements keeps to the
indices that a statement can name.

Does not own: the texts of a tree, or its value.
-/

set_option autoImplicit false

namespace SlotLogic

inductive Connective where
  | and
  | or
deriving DecidableEq, Repr

inductive Comparison where
  | eq
  | ne
  | ge
  | gt
  | le
  | lt
deriving DecidableEq, Repr

/-- The tree of a statement, with foreign leaves of a given type. -/
inductive Tree (Foreign : Type) where
  | null
  | slot (index : Int)
  | connect (operator : Connective) (left right : Tree Foreign)
  | compare (operator : Comparison) (left right : Tree Foreign)
  | choose (condition consequent alternative : Tree Foreign)
  | foreign (leaf : Foreign)
deriving DecidableEq, Repr

/-- A tree without foreign leaves. -/
abbrev Expr := Tree Empty

/-- An expression as a tree that might have foreign leaves. -/
def Expr.toTree {Foreign : Type} : Expr → Tree Foreign
  | .null => .null
  | .slot index => .slot index
  | .connect operator left right => .connect operator (toTree left) (toTree right)
  | .compare operator left right => .compare operator (toTree left) (toTree right)
  | .choose condition consequent alternative =>
    .choose (toTree condition) (toTree consequent) (toTree alternative)
  | .foreign leaf => leaf.elim

/-- Things that can say by a name what sort of thing they are. -/
class TypeNamed (Foreign : Type) where
  typeName : Foreign → String

instance : TypeNamed Empty where
  typeName leaf := leaf.elim

/-- The wording for a foreign leaf where it is refused. -/
def foreignMessage {Foreign : Type} [TypeNamed Foreign] (leaf : Foreign) : String :=
  s!"Unsupported AST node {TypeNamed.typeName leaf}"

def Connective.label : Connective → String
  | .and => "And"
  | .or => "Or"

def Comparison.label : Comparison → String
  | .eq => "Eq"
  | .ne => "Nq"
  | .ge => "Ge"
  | .gt => "Gt"
  | .le => "Le"
  | .lt => "Lt"

namespace Tree

variable {Foreign : Type}

/-- The label of a node, which names its sort. -/
def label [TypeNamed Foreign] : Tree Foreign → String
  | null => "Null"
  | slot _ => "Number"
  | connect operator _ _ => operator.label
  | compare operator _ _ => operator.label
  | choose _ _ _ => "If"
  | foreign leaf => TypeNamed.typeName leaf

def children : Tree Foreign → List (Tree Foreign)
  | connect _ left right => [left, right]
  | compare _ left right => [left, right]
  | choose condition consequent alternative => [condition, consequent, alternative]
  | null | slot _ | foreign _ => []

def size : Tree Foreign → Nat
  | connect _ left right => left.size + right.size + 1
  | compare _ left right => left.size + right.size + 1
  | choose condition consequent alternative =>
    condition.size + consequent.size + alternative.size + 1
  | null | slot _ | foreign _ => 1

def totalSize : List (Tree Foreign) → Nat
  | [] => 0
  | tree :: rest => tree.size + totalSize rest

theorem totalSize_children_append (node : Tree Foreign) (pending : List (Tree Foreign)) :
    totalSize (node.children ++ pending) + 1 = totalSize (node :: pending) := by
  cases node <;> simp [totalSize, children, size] <;> omega

/-- Walk the trees on a stack: take the top, and put its children in its place. -/
def walk : List (Tree Foreign) → List (Tree Foreign)
  | [] => []
  | node :: pending => node :: walk (node.children ++ pending)
termination_by stack => totalSize stack
decreasing_by
  have smaller := totalSize_children_append node pending
  omega

def preorder (tree : Tree Foreign) : List (Tree Foreign) :=
  walk [tree]

def index? : Tree Foreign → Option Int
  | slot index => some index
  | _ => none

/-- Insert an integer into an ascending list that has no integer twice. -/
def insertAscending (index : Int) : List Int → List Int
  | [] => [index]
  | head :: tail =>
    if index < head then index :: head :: tail
    else if index = head then head :: tail
    else head :: insertAscending index tail

/-- The indices of the slot leaves, ascending and each once. -/
def slots (tree : Tree Foreign) : List Int :=
  (tree.preorder.filterMap index?).foldr insertAscending []

/-- Whether two trees agree, with foreign leaves compared by a given test. -/
def agree (sameLeaf : Foreign → Foreign → Bool) : Tree Foreign → Tree Foreign → Bool
  | null, null => true
  | slot index, slot other => index == other
  | connect operator left right, connect operator' left' right' =>
    operator == operator' && agree sameLeaf left left' && agree sameLeaf right right'
  | compare operator left right, compare operator' left' right' =>
    operator == operator' && agree sameLeaf left left' && agree sameLeaf right right'
  | choose condition consequent alternative, choose condition' consequent' alternative' =>
    agree sameLeaf condition condition' && agree sameLeaf consequent consequent'
      && agree sameLeaf alternative alternative'
  | foreign leaf, foreign leaf' => sameLeaf leaf leaf'
  | _, _ => false

end Tree

end SlotLogic
