import SlotLogic.Proofs.Tree.Fault

/-!
Contract: what is made of a tree is what is made of its expression.

Owns: the expression that a tree is, the walk and the slots of an expression as a tree,
and the value of a table on an expression.

A tree without foreign leaves is an expression in another type. On expressions a table
always makes something, so what it makes is told by a total function.

Does not own: which leaf of another tree is refused.
-/

set_option autoImplicit false

namespace SlotLogic

variable {Foreign Result : Type}

/-- The tree as an expression, or its first foreign leaf in pre-order. -/
def Tree.proper? : Tree Foreign → Except Foreign Expr
  | .null => .ok .null
  | .slot index => .ok (.slot index)
  | .connect operator left right => do
    return .connect operator (← left.proper?) (← right.proper?)
  | .compare operator left right => do
    return .compare operator (← left.proper?) (← right.proper?)
  | .choose condition consequent alternative => do
    return .choose (← condition.proper?) (← consequent.proper?) (← alternative.proper?)
  | .foreign leaf => .error leaf

/-- What a table makes of an expression. -/
def Tree.Table.on (table : Table Result) : Expr → Result
  | .null => table.null
  | .slot index => table.slot index
  | .connect operator left right => table.connect operator (table.on left) (table.on right)
  | .compare operator left right => table.compare operator (table.on left) (table.on right)
  | .choose condition consequent alternative =>
    table.choose (table.on condition) (table.on consequent) (table.on alternative)
  | .foreign leaf => leaf.elim

namespace Tree

/-- A table makes something of the expressions, and of nothing else. -/
theorem make_eq_map (table : Table Result) (tree : Tree Foreign) :
    tree.make table = tree.proper?.map table.on := by
  induction tree with
  | null | slot | foreign => rfl
  | connect operator left right leftHypothesis rightHypothesis
  | compare operator left right leftHypothesis rightHypothesis =>
      rw [make, proper?, leftHypothesis, rightHypothesis]
      cases left.proper? with
      | error leaf => rfl
      | ok left => cases right.proper? <;> rfl
  | choose condition consequent alternative testHypothesis thenHypothesis elseHypothesis =>
      rw [make, proper?, testHypothesis, thenHypothesis, elseHypothesis]
      cases condition.proper? with
      | error leaf => rfl
      | ok condition =>
          cases consequent.proper? with
          | error leaf => rfl
          | ok consequent => cases alternative.proper? <;> rfl

/-- The tree as an expression, and `null` for one that has a foreign leaf. -/
def expr (tree : Tree Foreign) : Expr :=
  match tree.proper? with
  | .ok expr => expr
  | .error _ => .null

theorem expr_of_proper {tree : Tree Foreign} {expr : Expr} (proper : tree.proper? = .ok expr) :
    tree.expr = expr := by
  rw [Tree.expr, proper]

theorem make_of_proper (table : Table Result) {tree : Tree Foreign} {expr : Expr}
    (proper : tree.proper? = .ok expr) : tree.make table = .ok (table.on expr) := by
  rw [make_eq_map, proper]
  rfl

/-- What is made of a tree is made of its expression. -/
theorem proper_of_make {table : Table Result} {tree : Tree Foreign} {result : Result}
    (made : tree.make table = .ok result) :
    tree.proper? = .ok tree.expr ∧ result = table.on tree.expr := by
  cases proper : tree.proper? with
  | error leaf =>
      rw [make_eq_map, proper] at made
      cases made
  | ok expr =>
      rw [make_of_proper table proper] at made
      rw [expr_of_proper proper, Except.ok.inj made]
      exact ⟨rfl, rfl⟩

end Tree

namespace Expr

/-! ## Expressions as trees -/

theorem proper?_toTree (expr : Expr) : (expr.toTree : Tree Foreign).proper? = .ok expr := by
  induction expr with
  | null | slot => rfl
  | foreign leaf => exact leaf.elim
  | connect operator left right leftHypothesis rightHypothesis
  | compare operator left right leftHypothesis rightHypothesis =>
      rw [toTree, Tree.proper?, leftHypothesis, rightHypothesis]
      rfl
  | choose condition consequent alternative testHypothesis thenHypothesis elseHypothesis =>
      rw [toTree, Tree.proper?, testHypothesis, thenHypothesis, elseHypothesis]
      rfl

/-- A tree that is an expression differs from it in its type alone. -/
theorem toTree_of_proper {tree : Tree Foreign} {expr : Expr} (proper : tree.proper? = .ok expr) :
    tree = expr.toTree := by
  induction tree generalizing expr with
  | null | slot =>
      cases proper
      rfl
  | foreign leaf => cases proper
  | connect operator left right leftHypothesis rightHypothesis
  | compare operator left right leftHypothesis rightHypothesis =>
      obtain ⟨first, second, onLeft, onRight, rfl⟩ := ok_two proper
      rw [toTree, ← leftHypothesis onLeft, ← rightHypothesis onRight]
  | choose condition consequent alternative testHypothesis thenHypothesis elseHypothesis =>
      obtain ⟨test, first, second, onTest, onThen, onElse, rfl⟩ := ok_three proper
      rw [toTree, ← testHypothesis onTest, ← thenHypothesis onThen, ← elseHypothesis onElse]

theorem index?_toTree (expr : Expr) : (expr.toTree : Tree Foreign).index? = expr.index? := by
  cases expr with
  | null | slot | connect | compare | choose => rfl
  | foreign leaf => exact leaf.elim

theorem preorder_toTree (expr : Expr) :
    (expr.toTree : Tree Foreign).preorder = expr.preorder.map toTree := by
  induction expr with
  | null | slot =>
      rw [Tree.preorder_eq, Tree.preorder_eq, List.map_cons]
      rfl
  | foreign leaf => exact leaf.elim
  | connect operator left right leftHypothesis rightHypothesis =>
      rw [Tree.preorder_eq, Tree.preorder_eq (.connect operator left right), List.map_cons]
      simp [toTree, Tree.children, leftHypothesis, rightHypothesis]
  | compare operator left right leftHypothesis rightHypothesis =>
      rw [Tree.preorder_eq, Tree.preorder_eq (.compare operator left right), List.map_cons]
      simp [toTree, Tree.children, leftHypothesis, rightHypothesis]
  | choose condition consequent alternative testHypothesis thenHypothesis elseHypothesis =>
      rw [Tree.preorder_eq, Tree.preorder_eq (.choose condition consequent alternative),
        List.map_cons]
      simp [toTree, Tree.children, testHypothesis, thenHypothesis, elseHypothesis]

theorem slots_toTree (expr : Expr) : (expr.toTree : Tree Foreign).slots = expr.slots := by
  rw [Tree.slots, Tree.slots, preorder_toTree, List.filterMap_map]
  exact congrArg _ (congrArg (List.filterMap · _) (funext index?_toTree))

theorem slots_of_proper {tree : Tree Foreign} {expr : Expr} (proper : tree.proper? = .ok expr) :
    tree.slots = expr.slots := by
  rw [toTree_of_proper proper, slots_toTree]

end Expr

end SlotLogic
