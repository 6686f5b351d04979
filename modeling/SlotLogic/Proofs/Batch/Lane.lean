import Mathlib.Data.List.Basic
import SlotLogic.Proofs.Batch.Rank
import SlotLogic.Proofs.Evaluation.Origin

/-!
Contract: the lane of an expression is the lane of its value, marked by the slot that
the value was taken from.

Owns: the lane of an expression by recursion and its agreement with what is composed of
a tree, the lane of a result, the law of every operation on such lanes, and the lane of
a whole expression.

Where every number is ranked and every slot has been entered, no look-up fails. Then the
lane of a row is told by total functions.

Each law says that an operation on the lanes of two values is the lane of the
operation on the values. What it needs of the ranks is that they compare as the
numbers do; how they are made is not opened here.

Does not own: columns and their decoding.
-/

set_option autoImplicit false

namespace SlotLogic

variable {ranked : List Decimal}

/-- A value that is a number is one of the numbers of the ranking. -/
def Value.IsRanked (ranked : List Decimal) : Value → Prop
  | .number decimal => Ranked ranked decimal
  | .null | .bool _ => True

theorem Value.isRanked_of_not_number {value : Value} (other : ∀ number, value ≠ .number number) :
    value.IsRanked ranked := by
  cases value with
  | number decimal => exact absurd rfl (other decimal)
  | null | bool => trivial

/-! ## Lanes that are found -/

/-- The lane of what a slot holds, with its rank counted. -/
def Lane.holding (ranked : List Decimal) : Datum → Lane
  | .value (.number number) => ⟨.number, false, rankOf ranked number, noSource⟩
  | .value (.bool flag) => ⟨.bool, flag, 0, noSource⟩
  | _ => .null

theorem Lane.ofDatum_eq (ascending : Ascending ranked) {datum : Datum}
    (isRanked : ∀ number, datum = .value (.number number) → Ranked ranked number) :
    Lane.ofDatum ranked datum = .ok (.holding ranked datum) := by
  cases datum with
  | value held =>
      cases held with
      | number number =>
          rw [ofDatum, rank?_of_ranked ascending (isRanked number rfl)]
          rfl
      | null | bool => rfl
  | none | bool | integer | binary | text | decimal | list | record => rfl

/-- The lane of an expression, from the lanes of its slots. -/
def Expr.lane (slots : Int → Lane) : Expr → Lane
  | .null => .null
  | .slot index => .ofSlot index (slots index)
  | .connect operator left right => operator.lane (lane slots left) (lane slots right)
  | .compare operator left right => operator.lane (lane slots left) (lane slots right)
  | .choose condition consequent alternative =>
    .select (lane slots condition) (lane slots consequent) (lane slots alternative)
  | .foreign leaf => leaf.elim

/-- Where the slots of an expression have been entered, it has a lane. -/
theorem lowerings_on {expr : Expr} {entries : Int → Option Lane} {held : Int → Lane}
    (entered : expr.EverySlot fun index => entries index = some (held index)) :
    lowerings.on expr entries = .ok (expr.lane held) := by
  induction expr with
  | null => rfl
  | slot index =>
      have found : entries index = some (held index) := entered
      simp only [Tree.Table.on, lowerings, found]
      rfl
  | connect operator left right leftHypothesis rightHypothesis
  | compare operator left right leftHypothesis rightHypothesis =>
      simp only [Tree.Table.on, lowerings] at leftHypothesis rightHypothesis ⊢
      rw [leftHypothesis entered.1, rightHypothesis entered.2]
      rfl
  | choose condition consequent alternative testHypothesis thenHypothesis elseHypothesis =>
      simp only [Tree.Table.on, lowerings] at testHypothesis thenHypothesis elseHypothesis ⊢
      rw [testHypothesis entered.1, thenHypothesis entered.2.1, elseHypothesis entered.2.2]
      rfl
  | foreign leaf => exact leaf.elim

/-! ## Lanes of results -/

/-- The lane of a value with the slot that it was taken from. Null keeps no slot. -/
def Lane.ofResult (ranked : List Decimal) (value : Value) (origin? : Option Int) : Lane :=
  { Lane.holding ranked (.value value) with
    source := if value = .null then noSource else origin?.getD noSource }

/-! ## Operations -/

theorem Lane.ofSlot_holding (index : Int) (value : Value) :
    Lane.ofSlot index (.holding ranked (.value value)) =
      Lane.ofResult ranked value (some index) := by
  cases value <;> rfl

theorem connective_lane (operator : Connective) (left right : Value) (origin? origin?' : Option Int) :
    operator.lane (.ofResult ranked left origin?) (.ofResult ranked right origin?') =
      .ofResult ranked (operator.apply (.value left) (.value right)) none := by
  cases left <;> cases right <;> rfl

theorem equality_lane {left right : Value} (ascending : Ascending ranked)
    (leftRanked : left.IsRanked ranked) (rightRanked : right.IsRanked ranked) (negated : Bool)
    (origin? origin?' : Option Int) :
    equalityLane negated (.ofResult ranked left origin?) (.ofResult ranked right origin?') =
      .ofResult ranked
        (.ofTruth ((equality? (.value left) (.value right)).map (· != negated))) none := by
  cases left with
  | number first =>
      cases right with
      | number second =>
          have order : compare (rankOf ranked first) (rankOf ranked second) =
              first.compareValue second := compare_rankOf ascending leftRanked rightRanked
          have same : (rankOf ranked first == rankOf ranked second) = first.same second := by
            rw [Decimal.same, ← order, Bool.eq_iff_iff, beq_iff_eq, beq_iff_eq, Nat.compare_eq_eq]
          show Lane.truth true ((rankOf ranked first == rankOf ranked second) != negated) = _
          rw [same]
          rfl
      | null => cases negated <;> rfl
      | bool flag => rfl
  | null => cases right <;> cases negated <;> rfl
  | bool flag => cases right <;> rfl

/-- A test of two ranks that asks for their order only asks for the order of the
numbers. -/
theorem order_lane {left right : Value} (ascending : Ascending ranked)
    (leftRanked : left.IsRanked ranked) (rightRanked : right.IsRanked ranked)
    (holds : Nat → Nat → Bool) (decides : Ordering → Bool)
    (agrees : ∀ first second, holds first second = decides (compare first second))
    (origin? origin?' : Option Int) :
    orderLane holds (.ofResult ranked left origin?) (.ofResult ranked right origin?') =
      .ofResult ranked (.ofTruth ((order? (.value left) (.value right)).map decides)) none := by
  cases left with
  | number first =>
      cases right with
      | number second =>
          have order : compare (rankOf ranked first) (rankOf ranked second) =
              first.compareValue second := compare_rankOf ascending leftRanked rightRanked
          show Lane.truth true (holds (rankOf ranked first) (rankOf ranked second)) = _
          rw [agrees, order]
          rfl
      | null | bool => rfl
  | null | bool => cases right <;> rfl

theorem comparison_lane (operator : Comparison) {left right : Value}
    (ascending : Ascending ranked) (leftRanked : left.IsRanked ranked)
    (rightRanked : right.IsRanked ranked) (origin? origin?' : Option Int) :
    operator.lane (.ofResult ranked left origin?) (.ofResult ranked right origin?') =
      .ofResult ranked (operator.apply (.value left) (.value right)) none := by
  have equality := equality_lane ascending leftRanked rightRanked
  have order := order_lane ascending leftRanked rightRanked
  cases operator with
  | eq =>
      rw [Comparison.lane, equality, Comparison.apply]
      simp
  | ne =>
      rw [Comparison.lane, equality, Comparison.apply]
      simp
  | ge =>
      refine order (fun first second => second ≤ first) Ordering.isGE ?_ origin? origin?'
      intro first second
      rw [Bool.eq_iff_iff, decide_eq_true_iff, Nat.isGE_compare]
  | gt =>
      refine order (fun first second => second < first) Ordering.isGT ?_ origin? origin?'
      intro first second
      rw [Bool.eq_iff_iff, decide_eq_true_iff, Ordering.isGT_iff_eq_gt, Nat.compare_eq_gt]
  | le =>
      refine order (fun first second => first ≤ second) Ordering.isLE ?_ origin? origin?'
      intro first second
      rw [Bool.eq_iff_iff, decide_eq_true_iff, Nat.isLE_compare]
  | lt =>
      refine order (fun first second => first < second) Ordering.isLT ?_ origin? origin?'
      intro first second
      rw [Bool.eq_iff_iff, decide_eq_true_iff, Ordering.isLT_iff_eq_lt, Nat.compare_eq_lt]

/-- The branch that is selected is the one that is taken on the value of the test. -/
theorem select_ofResult (test : Value) (origin? : Option Int) (consequent alternative : Lane) :
    Lane.select (.ofResult ranked test origin?) consequent alternative =
      match test with
      | .bool true => consequent
      | .bool false => alternative
      | _ => Lane.ofResult ranked .null none := by
  cases test with
  | bool flag => cases flag <;> rfl
  | null | number => rfl

/-! ## Expressions -/

/-- Where the slots hold values whose numbers are ranked, an expression has a value,
and its lane is the lane of this value with its origin. -/
theorem lane_of_expr {slots : Int → Datum} {expr : Expr} (ascending : Ascending ranked)
    (held : expr.EverySlot fun index =>
      ∃ value, slots index = .value value ∧ value.IsRanked ranked) :
    ∃ value, expr.eval slots = .value value ∧ value.IsRanked ranked ∧
      expr.lane (fun index => .holding ranked (slots index)) =
        Lane.ofResult ranked value (expr.origin? slots) := by
  induction expr with
  | null => exact ⟨.null, rfl, trivial, rfl⟩
  | slot index =>
      obtain ⟨value, holds, isRanked⟩ := held
      refine ⟨value, holds, isRanked, ?_⟩
      rw [Expr.lane, holds, Lane.ofSlot_holding]
      rfl
  | connect operator left right leftHypothesis rightHypothesis =>
      obtain ⟨first, leftEval, -, leftLane⟩ := leftHypothesis held.1
      obtain ⟨second, rightEval, -, rightLane⟩ := rightHypothesis held.2
      refine ⟨_, by rw [Expr.eval_connect, leftEval, rightEval], ?_, ?_⟩
      · exact Value.isRanked_of_not_number (Expr.connective_not_number operator _ _)
      · rw [Expr.lane, leftLane, rightLane, connective_lane]
        rfl
  | compare operator left right leftHypothesis rightHypothesis =>
      obtain ⟨first, leftEval, leftRanked, leftLane⟩ := leftHypothesis held.1
      obtain ⟨second, rightEval, rightRanked, rightLane⟩ := rightHypothesis held.2
      refine ⟨_, by rw [Expr.eval_compare, leftEval, rightEval], ?_, ?_⟩
      · exact Value.isRanked_of_not_number (Expr.comparison_not_number operator _ _)
      · rw [Expr.lane, leftLane, rightLane,
          comparison_lane operator ascending leftRanked rightRanked]
        rfl
  | choose test consequent alternative testHypothesis thenHypothesis elseHypothesis =>
      obtain ⟨testHeld, thenHeld, elseHeld⟩ := held
      obtain ⟨decided, testEval, -, testLane⟩ := testHypothesis testHeld
      rw [Expr.eval_choose, Expr.lane, testLane, select_ofResult, Expr.origin?, testEval]
      cases decided with
      | bool flag =>
          cases flag with
          | true => exact thenHypothesis thenHeld
          | false => exact elseHypothesis elseHeld
      | null | number => exact ⟨.null, rfl, trivial, rfl⟩
  | foreign leaf => exact leaf.elim

end SlotLogic
