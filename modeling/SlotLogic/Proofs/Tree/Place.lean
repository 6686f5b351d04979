import Mathlib.Data.List.Basic
import SlotLogic.Proofs.Tree.Slots

/-!
Contract: the walk of a tree visits what stands at its places, in ascending order of the
places.

Owns: places, what stands at a place of a tree, the list of the places of a tree and its order,
and the induction that takes all sorts of nodes together.

Equal trees may stand at several places, so a place and not a tree says which node is meant. A
place that is the beginning of another one is above it.

Does not own: what is computed at a place.
-/

set_option autoImplicit false

namespace SlotLogic

/-- A place in a tree: which child is taken at each turn, from the root downward. -/
abbrev Place := List Nat

/-- The places below a node, from the places of its children. -/
def placesBelow (children : List (List Place)) : List Place :=
  children.zipIdx.flatMap fun child => child.1.map (child.2 :: ·)

namespace Tree

variable {Foreign : Type}

/-- What every node has if its children have it, every tree has. -/
theorem children_induction {motive : Tree Foreign → Prop}
    (step : ∀ node : Tree Foreign, (∀ child ∈ node.children, motive child) → motive node)
    (tree : Tree Foreign) : motive tree := by
  induction tree with
  | null | slot | foreign => exact step _ (List.forall_mem_nil _)
  | connect operator left right leftHypothesis rightHypothesis =>
      exact step _ (by simp [children, leftHypothesis, rightHypothesis])
  | compare operator left right leftHypothesis rightHypothesis =>
      exact step _ (by simp [children, leftHypothesis, rightHypothesis])
  | choose condition consequent alternative testHypothesis thenHypothesis elseHypothesis =>
      exact step _ (by simp [children, testHypothesis, thenHypothesis, elseHypothesis])

/-- The tree that stands at a place, if there is one. -/
def subtree? (tree : Tree Foreign) : Place → Option (Tree Foreign)
  | [] => some tree
  | turn :: rest => tree.children[turn]?.bind fun child => child.subtree? rest

/-- The places of a tree, its root first and then child by child. -/
def places : Tree Foreign → List Place
  | connect _ left right => [] :: placesBelow [left.places, right.places]
  | compare _ left right => [] :: placesBelow [left.places, right.places]
  | choose condition consequent alternative =>
    [] :: placesBelow [condition.places, consequent.places, alternative.places]
  | null | slot _ | foreign _ => [[]]

theorem places_eq (node : Tree Foreign) :
    node.places =
      [] :: node.children.zipIdx.flatMap fun child => child.1.places.map (child.2 :: ·) := by
  cases node <;> rfl

theorem subtree?_child {node child : Tree Foreign} {turn : Nat}
    (isChild : node.children[turn]? = some child) (rest : Place) :
    node.subtree? (turn :: rest) = child.subtree? rest := by
  rw [subtree?, isChild, Option.bind_some]

/-- The places of a tree ascend, so none comes twice. -/
theorem places_ascend (tree : Tree Foreign) : tree.places.Pairwise (· < ·) := by
  induction tree using children_induction with
  | step node childrenAscend =>
      rw [places_eq]
      apply List.pairwise_cons.mpr ⟨?_, List.pairwise_flatMap.mpr ⟨?_, ?_⟩⟩
      · intro place member
        obtain ⟨child, -, below⟩ := List.mem_flatMap.mp member
        obtain ⟨rest, -, rfl⟩ := List.mem_map.mp below
        exact List.nil_lt_cons child.2 rest
      · intro child member
        have isChild := List.mem_of_getElem? (List.mem_zipIdx_iff_getElem?.mp member)
        apply List.pairwise_map.mpr
        apply (childrenAscend child.1 isChild).imp
        intro left right lower
        exact List.cons_lt_cons_iff.mpr (.inr ⟨rfl, lower⟩)
      · -- The places below an earlier child begin with a lower turn.
        have turns : (node.children.zipIdx.map Prod.snd).Pairwise (· < ·) := by
          rw [List.zipIdx_map_snd]
          exact List.pairwise_lt_range'
        apply (List.pairwise_map.mp turns).imp
        intro first second lower left leftMember right rightMember
        obtain ⟨rest, -, rfl⟩ := List.mem_map.mp leftMember
        obtain ⟨rest', -, rfl⟩ := List.mem_map.mp rightMember
        exact List.cons_lt_cons_iff.mpr (.inl lower)

/-- The places of a tree are all those at which something stands. -/
theorem mem_places {tree : Tree Foreign} {place : Place} :
    place ∈ tree.places ↔ ∃ node, tree.subtree? place = some node := by
  induction place generalizing tree with
  | nil =>
      rw [places_eq]
      exact iff_of_true (List.mem_cons_self ..) ⟨tree, rfl⟩
  | cons turn rest inductionHypothesis =>
      rw [places_eq, List.mem_cons, or_iff_right (List.cons_ne_nil turn rest), List.mem_flatMap]
      constructor
      · rintro ⟨⟨child, turn'⟩, isChild, below⟩
        obtain ⟨rest', member, same⟩ := List.mem_map.mp below
        cases same
        rw [subtree?_child (List.mem_zipIdx_iff_getElem?.mp isChild)]
        exact inductionHypothesis.mp member
      · rintro ⟨node, stands⟩
        obtain ⟨child, isChild, below⟩ := Option.bind_eq_some_iff.mp stands
        exact ⟨(child, turn), List.mem_zipIdx_iff_getElem?.mpr isChild,
          List.mem_map_of_mem (inductionHypothesis.mpr ⟨node, below⟩)⟩

/-- At the places of a tree stand the nodes that its walk visits, in this order. -/
theorem map_subtree?_places (tree : Tree Foreign) :
    tree.places.map tree.subtree? = tree.preorder.map some := by
  induction tree using children_induction with
  | step node childrenStand =>
      have below : ∀ child ∈ node.children.zipIdx,
          (child.1.places.map (child.2 :: ·)).map node.subtree? = child.1.preorder.map some := by
        intro child member
        have isChild := List.mem_zipIdx_iff_getElem?.mp member
        rw [← childrenStand child.1 (List.mem_of_getElem? isChild), List.map_map]
        exact List.map_congr_left fun place _ => subtree?_child isChild place
      rw [places_eq, preorder_eq, List.map_cons, List.map_cons, List.map_flatMap,
        List.flatMap_congr below, List.map_flatMap]
      congr 1
      rw [← List.flatMap_map Prod.fst fun child : Tree Foreign => child.preorder.map some,
        List.zipIdx_map_fst]

/-- The walk visits whatever stands at a place. -/
theorem mem_preorder_of_subtree? {tree node : Tree Foreign} {place : Place}
    (stands : tree.subtree? place = some node) : node ∈ tree.preorder := by
  induction place generalizing tree with
  | nil =>
      cases stands
      rw [preorder_eq]
      exact List.mem_cons_self ..
  | cons turn rest inductionHypothesis =>
      obtain ⟨child, isChild, below⟩ := Option.bind_eq_some_iff.mp stands
      rw [preorder_eq]
      apply List.mem_cons_of_mem
      exact List.mem_flatMap.mpr
        ⟨child, List.mem_of_getElem? isChild, inductionHypothesis below⟩

/-- The walk visits what stands at some place, and nothing else. -/
theorem mem_preorder {tree node : Tree Foreign} :
    node ∈ tree.preorder ↔ ∃ place, tree.subtree? place = some node := by
  constructor
  · intro member
    have visited := List.mem_map_of_mem (f := some) member
    rw [← map_subtree?_places] at visited
    obtain ⟨place, -, stands⟩ := List.mem_map.mp visited
    exact ⟨place, stands⟩
  · rintro ⟨place, stands⟩
    exact mem_preorder_of_subtree? stands

end Tree

end SlotLogic
