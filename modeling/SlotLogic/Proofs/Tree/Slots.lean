import SlotLogic.Tree.Basic

/-!
Contract: the walk of a tree visits its nodes branch by branch, and its slots are
those of its leaves.

Owns: the walk of a stack in two parts, the pre-order of each node, membership in
the slots of a tree, their order, and properties of every slot leaf.

Does not own: the places of the leaves.
-/

set_option autoImplicit false

namespace SlotLogic.Tree

variable {Foreign : Type}

/-! ## The walk -/

/-- Of two stacks on each other, the upper one is walked first. -/
theorem walk_append (upper lower : List (Tree Foreign)) :
    walk (upper ++ lower) = walk upper ++ walk lower := by
  induction upper using walk.induct with
  | case1 => simp [walk]
  | case2 node pending inductionHypothesis =>
      rw [List.cons_append, walk, walk, List.cons_append, ← inductionHypothesis,
        List.append_assoc]

theorem walk_cons (node : Tree Foreign) (pending : List (Tree Foreign)) :
    walk (node :: pending) = node.preorder ++ walk pending :=
  walk_append [node] pending

/-- A node comes before the nodes of its children. -/
theorem preorder_eq (node : Tree Foreign) :
    node.preorder = node :: node.children.flatMap preorder := by
  have children : ∀ nodes : List (Tree Foreign), walk nodes = nodes.flatMap preorder := by
    intro nodes
    induction nodes with
    | nil => simp [walk]
    | cons head tail inductionHypothesis =>
        rw [walk_cons, inductionHypothesis, List.flatMap_cons]
  rw [preorder, walk, List.append_nil, children]

/-! ## Slots -/

theorem mem_insertAscending {index other : Int} {indices : List Int} :
    other ∈ insertAscending index indices ↔ other = index ∨ other ∈ indices := by
  induction indices with
  | nil => simp [insertAscending]
  | cons head tail inductionHypothesis =>
      unfold insertAscending
      split
      · simp
      · split
        · rename_i same
          simp [same]
        · simp [inductionHypothesis, or_left_comm]

theorem mem_foldr_insertAscending {index : Int} {indices : List Int} :
    index ∈ indices.foldr insertAscending [] ↔ index ∈ indices := by
  induction indices with
  | nil => simp
  | cons head tail inductionHypothesis =>
      rw [List.foldr_cons, mem_insertAscending, inductionHypothesis, List.mem_cons]

theorem insertAscending_ascend (index : Int) {indices : List Int}
    (ascend : indices.Pairwise (· < ·)) : (insertAscending index indices).Pairwise (· < ·) := by
  induction indices with
  | nil => exact List.pairwise_singleton ..
  | cons head tail inductionHypothesis =>
      obtain ⟨headBelow, tailAscend⟩ := List.pairwise_cons.mp ascend
      unfold insertAscending
      split
      · rename_i lower
        apply List.pairwise_cons.mpr ⟨?_, ascend⟩
        exact List.forall_mem_cons.mpr
          ⟨lower, fun other member => Int.lt_trans lower (headBelow other member)⟩
      · split
        · exact ascend
        · apply List.pairwise_cons.mpr ⟨?_, inductionHypothesis tailAscend⟩
          intro other member
          rcases mem_insertAscending.mp member with rfl | later
          · omega
          · exact headBelow other later

/-- The slots of a tree ascend, so none comes twice. -/
theorem slots_ascend (tree : Tree Foreign) : tree.slots.Pairwise (· < ·) := by
  unfold slots
  induction tree.preorder.filterMap index? with
  | nil => exact List.Pairwise.nil
  | cons index _ inductionHypothesis => exact insertAscending_ascend index inductionHypothesis

/-- The slots of a tree are the indices of the slot leaves that its walk visits. -/
theorem mem_slots {tree : Tree Foreign} {index : Int} :
    index ∈ tree.slots ↔ slot index ∈ tree.preorder := by
  rw [slots, mem_foldr_insertAscending, List.mem_filterMap]
  constructor
  · rintro ⟨node, member, holds⟩
    cases node with
    | slot other =>
        cases holds
        exact member
    | null | connect | compare | choose | foreign => cases holds
  · intro member
    exact ⟨slot index, member, rfl⟩

/-- A property of the index of every slot leaf. -/
def EverySlot (Holds : Int → Prop) : Tree Foreign → Prop
  | slot index => Holds index
  | connect _ left right => left.EverySlot Holds ∧ right.EverySlot Holds
  | compare _ left right => left.EverySlot Holds ∧ right.EverySlot Holds
  | choose condition consequent alternative =>
    condition.EverySlot Holds ∧ consequent.EverySlot Holds ∧ alternative.EverySlot Holds
  | null | foreign _ => True

theorem everySlot_iff {Holds : Int → Prop} {tree : Tree Foreign} :
    tree.EverySlot Holds ↔ ∀ index ∈ tree.slots, Holds index := by
  simp only [mem_slots]
  induction tree with
  | null | foreign => simp [EverySlot, preorder_eq, children]
  | slot index => simp [EverySlot, preorder_eq, children]
  | connect operator left right leftHypothesis rightHypothesis =>
      rw [EverySlot, leftHypothesis, rightHypothesis, preorder_eq (connect operator left right)]
      simp [children, or_imp, forall_and]
  | compare operator left right leftHypothesis rightHypothesis =>
      rw [EverySlot, leftHypothesis, rightHypothesis, preorder_eq (compare operator left right)]
      simp [children, or_imp, forall_and]
  | choose condition consequent alternative conditionHypothesis thenHypothesis elseHypothesis =>
      rw [EverySlot, conditionHypothesis, thenHypothesis, elseHypothesis,
        preorder_eq (choose condition consequent alternative)]
      simp [children, or_imp, forall_and]

theorem EverySlot.imp {Holds Holds' : Int → Prop} {tree : Tree Foreign}
    (every : tree.EverySlot Holds) (weaker : ∀ index, Holds index → Holds' index) :
    tree.EverySlot Holds' := by
  apply everySlot_iff.mpr
  intro index member
  exact weaker index (everySlot_iff.mp every index member)

end SlotLogic.Tree
