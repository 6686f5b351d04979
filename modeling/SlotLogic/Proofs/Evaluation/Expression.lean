import SlotLogic.Evaluation.Plan
import SlotLogic.Proofs.Tree.Expression

/-!
Contract: a plan computes the value of its expression.

Owns: the evaluation of an expression by recursion, its agreement with what the table of
evaluations makes, the expression of a plan, and the plans of expressions.

An evaluation is composed before the slots are known. Here the slots are known, so the
value of an expression is told from the values of its operands.

Does not own: batches.
-/

set_option autoImplicit false

namespace SlotLogic

/-! ## Values of expressions -/

namespace Expr

/-- Evaluate an expression under what its slots hold. -/
def run (slots : Int → Datum) : Expr → Evaluation
  | .null => ⟨.value .null, []⟩
  | .slot index => ⟨slots index, [index]⟩
  | .connect operator left right =>
    let first := run slots left
    let second := run slots right
    ⟨.value (operator.apply first.result second.result), first.reads ++ second.reads⟩
  | .compare operator left right =>
    let first := run slots left
    let second := run slots right
    ⟨.value (operator.apply first.result second.result), first.reads ++ second.reads⟩
  | .choose condition consequent alternative =>
    let test := run slots condition
    match test.result with
    | .value (.bool true) =>
      let taken := run slots consequent
      ⟨taken.result, test.reads ++ taken.reads⟩
    | .value (.bool false) =>
      let taken := run slots alternative
      ⟨taken.result, test.reads ++ taken.reads⟩
    | _ => ⟨.value .null, test.reads⟩
  | .foreign leaf => leaf.elim

def eval (slots : Int → Datum) (expr : Expr) : Datum :=
  (run slots expr).result

theorem evaluations_on (expr : Expr) (slots : Int → Datum) :
    evaluations.on expr slots = expr.run slots := by
  induction expr with
  | null | slot => rfl
  | foreign leaf => exact leaf.elim
  | connect operator left right leftHypothesis rightHypothesis
  | compare operator left right leftHypothesis rightHypothesis =>
      rw [run, ← leftHypothesis, ← rightHypothesis]
      rfl
  | choose condition consequent alternative testHypothesis thenHypothesis elseHypothesis =>
      simp only [Tree.Table.on, evaluations] at *
      rw [testHypothesis, thenHypothesis, elseHypothesis, run]
      cases (run slots condition).result with
      | value held =>
          cases held with
          | bool flag => cases flag <;> rfl
          | null | number => rfl
      | none | bool | integer | binary | text | decimal | list | record => rfl

end Expr

/-! ## Plans -/

namespace Plan

/-- The tree of a plan as an expression. -/
def expr (plan : Plan) : Expr :=
  plan.root.expr

/-- A plan has no foreign leaf, or nothing would have been composed of its tree. -/
theorem proper (plan : Plan) : plan.root.proper? = .ok plan.expr :=
  (Tree.proper_of_make plan.composed).1

theorem slots_eq (plan : Plan) : plan.slots = plan.expr.slots :=
  Expr.slots_of_proper plan.proper

theorem run_eq (plan : Plan) (row : Row) : plan.run row = plan.expr.run row.read := by
  have evaluates : plan.evaluate = evaluations.on plan.expr :=
    (Tree.proper_of_make plan.composed).2
  rw [Plan.run, evaluates, Expr.evaluations_on]

end Plan

theorem Logged.build_outcome {Fault Result Result' : Type}
    (make : Result → Except Fault Result') (record : Result' → LogRecord)
    (logged : Logged Fault Result) :
    (logged.build make record).outcome = logged.outcome.bind make := by
  unfold Logged.build
  split
  · rename_i result made
    exact made.symm
  · rename_i fault fails
    exact fails.symm

theorem ofTree_of_not_text {root : Tree Datum}
    (notText : ∀ source, root ≠ .foreign (.text source)) : Subject.ofTree root = .tree root := by
  unfold Subject.ofTree
  split
  · exact absurd rfl (notText _)
  · rfl

/-- A tree is built into a plan by composing it. -/
theorem build_tree (lenient : Bool) (root : Tree Datum) :
    (Plan.build lenient (.tree root)).outcome = Plan.compose none root := by
  rw [Plan.build, Logged.build_outcome]
  rfl

theorem ofTree_of_proper {root : Tree Datum} {expr : Expr} (proper : root.proper? = .ok expr) :
    Subject.ofTree root = .tree root := by
  apply ofTree_of_not_text
  rintro source rfl
  cases proper

namespace Plan

variable {root : Tree Datum} {expr : Expr} {plan : Plan}

theorem root_of_compose {source? : Option String} (made : compose source? root = .ok plan) :
    plan.root = root ∧ plan.source? = source? := by
  unfold compose at made
  split at made
  · cases made
    exact ⟨rfl, rfl⟩
  · cases made

theorem compose_of_compile (source? : Option String) {evaluate : Evaluator}
    (composed : root.compile = .ok evaluate) :
    compose source? root = .ok ⟨root, source?, evaluate, composed⟩ := by
  unfold compose
  split
  · rename_i found
    cases found.symm.trans composed
    rfl
  · rename_i fails
    cases fails.symm.trans composed

/-- An expression has a plan. -/
theorem compose_of_proper (source? : Option String) (proper : root.proper? = .ok expr) :
    ∃ plan, compose source? root = .ok plan ∧ plan.expr = expr :=
  ⟨_, compose_of_compile source? (Tree.make_of_proper evaluations proper),
    Tree.expr_of_proper proper⟩

end Plan

/-- A tree without foreign leaves is built into a plan of its expression. -/
theorem plan_build_of_proper (lenient : Bool) {root : Tree Datum} {expr : Expr}
    (proper : root.proper? = .ok expr) :
    ∃ plan, (Plan.build lenient (.ofTree root)).outcome = .ok plan ∧ plan.expr = expr := by
  rw [ofTree_of_proper proper, build_tree]
  exact Plan.compose_of_proper none proper

end SlotLogic
