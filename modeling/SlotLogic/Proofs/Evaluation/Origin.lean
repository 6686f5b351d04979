import SlotLogic.Proofs.Evaluation.Expression

/-!
Contract: the value of an expression, node by node, and the slot that it was taken
from.

Owns: the equations of evaluation, the origin of a result, and what an origin says
about the result.

A result is taken from a slot if the leaf that the choices lead to is a slot leaf.
Only such a result can be a number, or no value at all.

Does not own: rows and lanes.
-/

set_option autoImplicit false

namespace SlotLogic.Expr

variable {slots : Int → Datum}

/-! ## Evaluation -/

theorem eval_connect (operator : Connective) (left right : Expr) :
    eval slots (.connect operator left right) =
      .value (operator.apply (eval slots left) (eval slots right)) :=
  rfl

theorem eval_compare (operator : Comparison) (left right : Expr) :
    eval slots (.compare operator left right) =
      .value (operator.apply (eval slots left) (eval slots right)) :=
  rfl

theorem eval_choose (test consequent alternative : Expr) :
    eval slots (.choose test consequent alternative) =
      match eval slots test with
      | .value (.bool true) => eval slots consequent
      | .value (.bool false) => eval slots alternative
      | _ => .value .null := by
  simp only [eval, run]
  split <;> simp_all

/-! ## Origins -/

/-- The slot leaf that the choices lead to, if they lead to one. -/
def origin? (slots : Int → Datum) : Expr → Option Int
  | .slot index => some index
  | .choose test consequent alternative =>
    match eval slots test with
    | .value (.bool true) => origin? slots consequent
    | .value (.bool false) => origin? slots alternative
    | _ => none
  | .null | .connect _ _ _ | .compare _ _ _ => none
  | .foreign leaf => leaf.elim

/-- A result with an origin is what the slot holds. -/
theorem eval_of_origin {expr : Expr} {index : Int} (origin : origin? slots expr = some index) :
    eval slots expr = slots index := by
  induction expr with
  | slot other =>
      cases origin
      rfl
  | choose test consequent alternative _ thenHypothesis elseHypothesis =>
      rw [origin?] at origin
      rw [eval_choose]
      split at origin
      · exact thenHypothesis origin
      · exact elseHypothesis origin
      · cases origin
  | null | connect | compare => cases origin
  | foreign leaf => exact leaf.elim

/-- An origin is one of the slots of the expression. -/
theorem holds_of_origin {expr : Expr} {index : Int} {Holds : Int → Prop}
    (every : expr.EverySlot Holds) (origin : origin? slots expr = some index) : Holds index := by
  induction expr with
  | slot other =>
      cases origin
      exact every
  | choose test consequent alternative _ thenHypothesis elseHypothesis =>
      obtain ⟨-, thenEvery, elseEvery⟩ := every
      rw [origin?] at origin
      split at origin
      · exact thenHypothesis thenEvery origin
      · exact elseHypothesis elseEvery origin
      · cases origin
  | null | connect | compare => cases origin
  | foreign leaf => exact leaf.elim

theorem connective_not_number (operator : Connective) (left right : Datum) (number : Decimal) :
    operator.apply left right ≠ .number number := by
  unfold Connective.apply
  split <;> simp

theorem comparison_not_number (operator : Comparison) (left right : Datum) (number : Decimal) :
    operator.apply left right ≠ .number number := by
  unfold Comparison.apply Value.ofTruth
  split <;> simp

/-- A number that is a result was taken from a slot. -/
theorem origin_of_number {expr : Expr} {number : Decimal}
    (result : eval slots expr = .value (.number number)) :
    ∃ index, origin? slots expr = some index := by
  induction expr with
  | slot index => exact ⟨index, rfl⟩
  | choose test consequent alternative _ thenHypothesis elseHypothesis =>
      rw [eval_choose] at result
      rw [origin?]
      split at result
      · exact thenHypothesis result
      · exact elseHypothesis result
      · cases result
  | null => cases result
  | connect operator left right =>
      rw [eval_connect] at result
      exact absurd (Datum.value.inj result) (connective_not_number operator _ _ number)
  | compare operator left right =>
      rw [eval_compare] at result
      exact absurd (Datum.value.inj result) (comparison_not_number operator _ _ number)
  | foreign leaf => exact leaf.elim

end SlotLogic.Expr
