import Mathlib.Logic.Function.Iterate
import SlotLogic.Proofs.Tree.Place

/-!
Contract: the walk of a tree on a stack comes to an end, and gives out the nodes in the order of
the recursion on the tree.

Owns: the nodes of a tree by recursion, a walk under way and its single turns, what any number of
turns gives out, and the number of turns until the stack is empty.

A walk under way keeps its stack with the top at the end, so the children of a node are put on it
in reverse. What it has still to give out is the walk of the stack read from the top. A turn moves
the first node of that to those given out, whatever the stack holds. Everything else about a run
follows from this.

Does not own: the order of the places.
-/

set_option autoImplicit false

namespace SlotLogic.Tree

variable {Foreign : Type}

/-! ## The nodes by recursion -/

/-- A node and behind it the nodes of its children, child by child. -/
def nodes : Tree Foreign → List (Tree Foreign)
  | connect operator left right => connect operator left right :: (left.nodes ++ right.nodes)
  | compare operator left right => compare operator left right :: (left.nodes ++ right.nodes)
  | choose condition consequent alternative =>
    choose condition consequent alternative
      :: (condition.nodes ++ consequent.nodes ++ alternative.nodes)
  | null => [null]
  | slot index => [slot index]
  | foreign leaf => [foreign leaf]

theorem nodes_eq (node : Tree Foreign) : node.nodes = node :: node.children.flatMap nodes := by
  cases node <;> simp [nodes, children]

theorem preorder_eq_nodes (tree : Tree Foreign) : tree.preorder = tree.nodes := by
  induction tree using children_induction with
  | step node inductionHypothesis =>
      rw [preorder_eq, nodes_eq, List.flatMap_congr inductionHypothesis]

/-! ## The walk turn by turn -/

theorem walk_eq_nil_iff {stack : List (Tree Foreign)} : walk stack = [] ↔ stack = [] := by
  cases stack <;> simp [walk]

/-- A walk visits as many nodes as the trees on its stack have together. -/
theorem length_walk (stack : List (Tree Foreign)) : (walk stack).length = totalSize stack := by
  induction stack using walk.induct with
  | case1 => simp [walk, totalSize]
  | case2 node pending inductionHypothesis =>
      rw [walk, List.length_cons, inductionHypothesis, totalSize_children_append]

/-- A walk under way: the nodes given out so far, and the stack with its top at the end. -/
structure Visit (Foreign : Type) where
  given : List (Tree Foreign)
  pending : List (Tree Foreign)

namespace Visit

def start (tree : Tree Foreign) : Visit Foreign :=
  ⟨[], [tree]⟩

/-- The top of the stack is given out, and its children go on the stack, the first one on top.
With an empty stack nothing happens. -/
def turn (visit : Visit Foreign) : Visit Foreign :=
  match visit.pending.getLast? with
  | some node => ⟨visit.given ++ [node], visit.pending.dropLast ++ node.children.reverse⟩
  | none => visit

/-- What is still to be given out. -/
def ahead (visit : Visit Foreign) : List (Tree Foreign) :=
  walk visit.pending.reverse

theorem ahead_start (tree : Tree Foreign) : (start tree).ahead = tree.preorder := rfl

theorem ahead_eq_nil_iff {visit : Visit Foreign} : visit.ahead = [] ↔ visit.pending = [] := by
  rw [ahead, walk_eq_nil_iff, List.reverse_eq_nil_iff]

theorem turn_top (given lower : List (Tree Foreign)) (node : Tree Foreign) :
    turn ⟨given, lower ++ [node]⟩ = ⟨given ++ [node], lower ++ node.children.reverse⟩ := by
  simp [turn]

theorem ahead_top (given lower : List (Tree Foreign)) (node : Tree Foreign) :
    ahead ⟨given, lower ++ [node]⟩ = node :: walk (node.children ++ lower.reverse) := by
  rw [ahead, List.reverse_append, List.reverse_singleton, List.singleton_append, walk]

/-- A turn gives out the first node that is ahead. -/
theorem turn_step (visit : Visit Foreign) :
    visit.turn.given = visit.given ++ visit.ahead.take 1 ∧
      visit.turn.ahead = visit.ahead.drop 1 := by
  obtain ⟨given, pending⟩ := visit
  rcases List.eq_nil_or_concat' pending with rfl | ⟨lower, node, rfl⟩
  · simp [turn, ahead, walk]
  · rw [turn_top, ahead_top]
    refine ⟨rfl, ?_⟩
    -- The reversed children come back in their order where the stack is read from the top.
    rw [ahead, List.reverse_append, List.reverse_reverse, List.drop_succ_cons, List.drop_zero]

/-- Any number of turns gives out as many of the nodes ahead, in their order. -/
theorem turns_run (turns : Nat) (visit : Visit Foreign) :
    (turn^[turns] visit).given = visit.given ++ visit.ahead.take turns ∧
      (turn^[turns] visit).ahead = visit.ahead.drop turns := by
  induction turns with
  | zero => simp
  | succ turns inductionHypothesis =>
      obtain ⟨given, ahead⟩ := inductionHypothesis
      obtain ⟨givenNext, aheadNext⟩ := (turn^[turns] visit).turn_step
      rw [Function.iterate_succ_apply', givenNext, aheadNext, given, ahead, List.append_assoc,
        ← List.take_add, List.drop_drop]
      exact ⟨rfl, rfl⟩

/-- The stack is empty as soon as there were as many turns as nodes, and no sooner. -/
theorem pending_eq_nil_iff (turns : Nat) (visit : Visit Foreign) :
    (turn^[turns] visit).pending = [] ↔ totalSize visit.pending.reverse ≤ turns := by
  rw [← ahead_eq_nil_iff, (turns_run turns visit).2, List.drop_eq_nil_iff, ahead, length_walk]

end Visit

/-! ## The walk of a tree -/

/-- A walk on a stack ends after as many turns as the tree has nodes, and after each number of
turns it has given out the beginning of the recursive pre-order of that length. So it visits what
stands at each place once, in ascending order of the places. The slots ascend as well, and they
are the indices that occur at some place. -/
theorem walk_gives_nodes_in_preorder (tree : Tree Foreign) :
    (∀ turns, (Visit.turn^[turns] (.start tree)).given = tree.nodes.take turns) ∧
      (∀ turns, (Visit.turn^[turns] (.start tree)).pending = [] ↔ tree.size ≤ turns) ∧
      tree.preorder = tree.nodes ∧
      tree.nodes = tree :: tree.children.flatMap nodes ∧
      tree.places.map tree.subtree? = tree.preorder.map some ∧
      tree.places.Pairwise (· < ·) ∧
      (∀ place, place ∈ tree.places ↔ ∃ node, tree.subtree? place = some node) ∧
      tree.slots.Pairwise (· < ·) ∧
      ∀ index, index ∈ tree.slots ↔ ∃ place, tree.subtree? place = some (slot index) := by
  refine ⟨?_, ?_, tree.preorder_eq_nodes, tree.nodes_eq, tree.map_subtree?_places,
    tree.places_ascend, fun place => mem_places, tree.slots_ascend,
    fun index => mem_slots.trans mem_preorder⟩
  · intro turns
    rw [(Visit.turns_run turns (.start tree)).1, Visit.ahead_start, preorder_eq_nodes]
    exact List.nil_append _
  · intro turns
    exact Visit.pending_eq_nil_iff turns (.start tree)

/-- After two turns the operands of the condition lie on top of the two branches. -/
example :
    (Visit.turn^[2]
        (.start (choose (compare .eq (slot 1) null) (foreign ()) (slot 2)))).pending =
      [slot 2, foreign (), null, slot 1] :=
  rfl

end SlotLogic.Tree
