import SlotLogic.Proofs.Batch.Agreement
import SlotLogic.Proofs.Tree.Place

/-!
Contract: an evaluation asks for the slots of the leaves in the order of the walk, and leaves out
the branches that are not taken and nothing else.

Owns: the branch that a choice takes, the places that an evaluation comes to, and the slots that
it asks for.

No operand is left out for the value of another one. What is left out lies below a choice that
the evaluation comes to: the branch that is not taken, or both branches if the test is no
boolean.

Does not own: values.
-/

set_option autoImplicit false

namespace SlotLogic

/-- Which child of a choice is taken for what its test gives. -/
def Datum.branch? : Datum → Option Nat
  | .value (.bool true) => some 1
  | .value (.bool false) => some 2
  | _ => Option.none

namespace Expr

variable {slots : Int → Datum} {expr child : Expr}

/-- Whether a child of a node is a branch that is not taken. The test of a choice is none. -/
def passesOver (slots : Int → Datum) : Expr → Nat → Bool
  | .choose test _ _, turn => turn != 0 && (eval slots test).branch? != some turn
  | _, _ => false

/-- Whether the evaluation of an expression comes to a place. -/
def comesTo (slots : Int → Datum) (expr : Expr) : Place → Bool
  | [] => true
  | turn :: rest =>
    !passesOver slots expr turn && expr.children[turn]?.all fun child => comesTo slots child rest

/-- A place lies in a branch that the node above it does not take. -/
def LeavesOut (slots : Int → Datum) (expr : Expr) (above place : Place) : Prop :=
  ∃ node turn below, expr.subtree? above = some node ∧ passesOver slots node turn = true ∧
    place = above ++ turn :: below

/-! ## Places that are left out -/

theorem comesTo_child {turn : Nat} (isChild : expr.children[turn]? = some child) (rest : Place) :
    comesTo slots expr (turn :: rest) =
      (!passesOver slots expr turn && comesTo slots child rest) := by
  rw [comesTo, isChild, Option.all_some]

theorem leavesOut_child {turn : Nat} (isChild : expr.children[turn]? = some child)
    {above rest : Place} :
    LeavesOut slots expr (turn :: above) (turn :: rest) ↔ LeavesOut slots child above rest := by
  simp only [LeavesOut, Tree.subtree?_child isChild, List.cons_append, List.cons.injEq, true_and]

/-- An evaluation does not come to a place exactly if a node that it comes to leaves the place
out. -/
theorem not_comesTo_iff {place : Place} :
    comesTo slots expr place = false ↔
      ∃ above, comesTo slots expr above = true ∧ LeavesOut slots expr above place := by
  induction place generalizing expr with
  | nil => simp [comesTo, LeavesOut]
  | cons turn rest inductionHypothesis =>
      constructor
      · intro missed
        by_cases passed : passesOver slots expr turn = true
        · exact ⟨[], rfl, expr, turn, rest, rfl, passed, rfl⟩
        · cases isChild : expr.children[turn]? with
          | none => simp [comesTo, passed, isChild] at missed
          | some child =>
              have missedInChild : comesTo slots child rest = false := by
                simpa [comesTo_child isChild, passed] using missed
              obtain ⟨above, comes, leaves⟩ := inductionHypothesis.mp missedInChild
              refine ⟨turn :: above, ?_, (leavesOut_child isChild).mpr leaves⟩
              simp [comesTo_child isChild, passed, comes]
      · rintro ⟨above, comes, leaves⟩
        obtain ⟨node, turn', below, stands, passed, split⟩ := id leaves
        -- The node that leaves the place out is the root, or it stands below the same child.
        cases above with
        | nil =>
            cases stands
            cases split
            simp [comesTo, passed]
        | cons first above =>
            cases (List.cons.inj split).1
            obtain ⟨child, isChild, -⟩ := Option.bind_eq_some_iff.mp stands
            rw [comesTo_child isChild, Bool.and_eq_true] at comes
            have missedInChild : comesTo slots child rest = false :=
              inductionHypothesis.mpr ⟨above, comes.2, (leavesOut_child isChild).mp leaves⟩
            rw [comesTo_child isChild, missedInChild, Bool.and_false]

/-! ## Slots that are asked for -/

/-- The index of the slot leaf at a place, if one stands there. -/
def slotAt? (expr : Expr) (place : Place) : Option Int :=
  (expr.subtree? place).bind Tree.index?

/-- The slot leaves that an evaluation comes to, in the order of the walk. -/
def visited (slots : Int → Datum) (expr : Expr) : List Int :=
  (expr.places.filter (comesTo slots expr)).filterMap (slotAt? expr)

theorem reads_choose (slots : Int → Datum) (test consequent alternative : Expr) :
    (run slots (.choose test consequent alternative)).reads =
      (run slots test).reads ++
        ((if (eval slots test).branch? = some 1 then (run slots consequent).reads else []) ++
          if (eval slots test).branch? = some 2 then (run slots alternative).reads else []) := by
  rw [run, eval]
  cases (run slots test).result with
  | value held =>
      cases held with
      | bool flag => cases flag <;> simp [Datum.branch?]
      | null | number => simp [Datum.branch?]
  | none | bool | integer | binary | text | decimal | list | record => simp [Datum.branch?]

/-- A node asks for its own slot, and then for those of the children that it does not pass over,
one after the other. -/
theorem reads_eq (slots : Int → Datum) (node : Expr) :
    (run slots node).reads =
      node.index?.toList ++ node.children.zipIdx.flatMap fun child =>
        if passesOver slots node child.2 then [] else (run slots child.1).reads := by
  cases node with
  | null | slot => rfl
  | connect operator left right => simp [run, Tree.index?, Tree.children, passesOver]
  | compare operator left right => simp [run, Tree.index?, Tree.children, passesOver]
  | choose test consequent alternative =>
      rw [reads_choose]
      simp [Tree.index?, Tree.children, passesOver]
  | foreign leaf => exact leaf.elim

theorem visited_eq (slots : Int → Datum) (node : Expr) :
    visited slots node =
      node.index?.toList ++ node.children.zipIdx.flatMap fun child =>
        if passesOver slots node child.2 then [] else visited slots child.1 := by
  have below : ∀ child ∈ node.children.zipIdx,
      ((child.1.places.map (child.2 :: ·)).filter (comesTo slots node)).filterMap (slotAt? node) =
        if passesOver slots node child.2 then [] else visited slots child.1 := by
    intro child member
    have isChild := List.mem_zipIdx_iff_getElem?.mp member
    have comes (place : Place) : comesTo slots node (child.2 :: place) =
        (!passesOver slots node child.2 && comesTo slots child.1 place) :=
      comesTo_child isChild place
    have stands (place : Place) : slotAt? node (child.2 :: place) = slotAt? child.1 place := by
      rw [slotAt?, Tree.subtree?_child isChild, slotAt?]
    rw [List.filter_map, List.filterMap_map]
    cases passed : passesOver slots node child.2 with
    | true => simp [Function.comp_def, comes, passed]
    | false => simp [Function.comp_def, comes, stands, passed, visited]
  have root : slotAt? node [] = node.index? := rfl
  rw [visited, Tree.places_eq, List.filter_cons_of_pos rfl, List.filterMap_cons, root,
    List.filter_flatMap, List.filterMap_flatMap, List.flatMap_congr below]
  cases node.index? <;> rfl

/-- An evaluation asks for the slots of the leaves that it comes to. -/
theorem reads_eq_visited (slots : Int → Datum) (expr : Expr) :
    (run slots expr).reads = visited slots expr := by
  induction expr using Tree.children_induction with
  | step node childrenRead =>
      rw [reads_eq, visited_eq]
      congr 1
      apply List.flatMap_congr
      intro child member
      rw [childrenRead child.1 (List.mem_of_getElem? (List.mem_zipIdx_iff_getElem?.mp member))]

theorem filterMap_slotAt?_places (expr : Expr) :
    expr.places.filterMap (slotAt? expr) = expr.preorder.filterMap Tree.index? := by
  have nodes := congrArg (List.filterMap fun node? => node?.bind Tree.index?)
    (Tree.map_subtree?_places expr)
  rw [List.filterMap_map, List.filterMap_map] at nodes
  exact nodes

/-- Where no choice stands in an expression, its evaluation comes to every place. -/
theorem comesTo_of_no_choice
    (plain : ∀ test consequent alternative, .choose test consequent alternative ∉ expr.preorder)
    (place : Place) : comesTo slots expr place = true := by
  rw [← Bool.not_eq_false, not_comesTo_iff]
  rintro ⟨above, -, node, turn, below, stands, passed, -⟩
  have member := Tree.mem_preorder_of_subtree? stands
  cases node with
  | choose test consequent alternative => exact plain _ _ _ member
  | null | slot | connect | compare | foreign => cases passed

end Expr

/-- A plan asks for the slots of the leaves in the order of the walk, without the leaves that
are left out: exactly those in a branch that is not taken of a choice that the evaluation comes
to. So it asks for no leaf twice, and for all of them where there is no choice. -/
theorem reads_leave_out_untaken_branches {root : Tree Datum} {expr : Expr} (lenient : Bool)
    (proper : root.proper? = .ok expr) :
    ∃ plan, (Plan.build lenient (.ofTree root)).outcome = .ok plan ∧
      expr.places.Pairwise (· < ·) ∧
      expr.places.map expr.subtree? = expr.preorder.map some ∧
      ∀ row : Row,
        (plan.run row).reads =
          (expr.places.filter (Expr.comesTo row.read expr)).filterMap (Expr.slotAt? expr) ∧
        (∀ place, Expr.comesTo row.read expr place = false ↔
          ∃ above, Expr.comesTo row.read expr above = true ∧
            Expr.LeavesOut row.read expr above place) ∧
        (plan.run row).reads.Sublist (expr.preorder.filterMap Tree.index?) ∧
        ((∀ test consequent alternative,
            .choose test consequent alternative ∉ expr.preorder) →
          (plan.run row).reads = expr.preorder.filterMap Tree.index?) := by
  obtain ⟨plan, planned, rfl⟩ := plan_build_of_proper lenient proper
  refine ⟨plan, planned, plan.expr.places_ascend, plan.expr.map_subtree?_places, ?_⟩
  intro row
  rw [plan.run_eq]
  have reads := Expr.reads_eq_visited row.read plan.expr
  refine ⟨reads, fun place => Expr.not_comesTo_iff, ?_, ?_⟩
  · rw [← Expr.filterMap_slotAt?_places, reads, Expr.visited]
    exact List.filter_sublist.filterMap _
  · intro plain
    rw [← Expr.filterMap_slotAt?_places, reads, Expr.visited,
      List.filter_eq_self.mpr fun place _ => Expr.comesTo_of_no_choice plain place]

/-- A choice whose test is a choice itself, and whose alternative is one as well. -/
def nestedChoices {Foreign : Type} : Tree Foreign :=
  .choose
    (.choose (.compare .eq (.slot 1) (.slot 2)) (.compare .lt (.slot 3) (.slot 1)) (.slot 4))
    (.connect .and (.slot 5) (.slot 6))
    (.choose (.slot 7) (.slot 8) (.slot 9))

/-- A row on which the test of `nestedChoices` is false and slot 7 holds no boolean. -/
def unevenRow : Row :=
  Assignment.toRow ⟨[(1, .number ⟨false, 1, 0⟩), (2, .number ⟨false, 10, -1⟩),
    (3, .number ⟨false, 5, 0⟩), (5, .bool true), (7, .number ⟨false, 7, 0⟩), (8, .bool true)]⟩

/-- Slot 1 is asked for by each of its two leaves, one branch of the inner choice of the test
is left out, and both branches below slot 7 are. -/
theorem nested_choices_ask_for_five :
    ∃ plan, (Plan.build false (.ofTree nestedChoices)).outcome = .ok plan ∧
      (plan.run unevenRow).reads = [1, 2, 3, 1, 7] ∧
      (plan.run unevenRow).reads.Sublist [1, 2, 3, 1, 4, 5, 6, 7, 8, 9] := by
  have proper : (nestedChoices : Tree Datum).proper? = .ok nestedChoices := rfl
  obtain ⟨plan, built, -, -, onRows⟩ := reads_leave_out_untaken_branches false proper
  obtain ⟨reads, -, sublist, -⟩ := onRows unevenRow
  refine ⟨plan, built, ?_, ?_⟩
  · rw [reads]
    decide +kernel
  · rw [← Expr.filterMap_slotAt?_places] at sublist
    exact sublist

end SlotLogic
