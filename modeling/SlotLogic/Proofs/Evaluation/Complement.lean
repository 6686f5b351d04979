import SlotLogic.Proofs.Batch.Agreement

/-!
Contract: the complement of a test is its negation, and null where the test is null.

Owns: opposite comparisons and dual connectives, the complement of a test, its value, and
choices whose test is complemented and whose branches are exchanged.

Each comparison is decided on the same data as its opposite, and dual connectives are null on
the same data, so by induction a test and its complement are. What is compared may be any tree
and stays as it is.

Does not own: what is compared.
-/

set_option autoImplicit false

namespace SlotLogic

/-! ## Complements -/

/-- The connective that is the other one on negated operands. -/
def Connective.dual : Connective → Connective
  | .and => .or
  | .or => .and

/-- The comparison that holds where another one, being decided, does not. -/
def Comparison.opposite : Comparison → Comparison
  | .eq => .ne
  | .ne => .eq
  | .ge => .lt
  | .lt => .ge
  | .gt => .le
  | .le => .gt

namespace Tree

variable {Foreign : Type}

/-- Comparisons of any trees, connected in any nesting. -/
def isTest : Tree Foreign → Bool
  | connect _ left right => left.isTest && right.isTest
  | compare _ _ _ => true
  | _ => false

/-- A test with every comparison and every connective exchanged for its counterpart. What is
compared stays as it is. -/
def complement : Tree Foreign → Tree Foreign
  | connect operator left right => connect operator.dual left.complement right.complement
  | compare operator left right => compare operator.opposite left right
  | other => other

/-- A complement has the slots of its test. -/
theorem everySlot_complement {Holds : Int → Prop} {tree : Tree Foreign} :
    tree.complement.EverySlot Holds ↔ tree.EverySlot Holds := by
  induction tree with
  | connect operator left right leftHypothesis rightHypothesis =>
      exact and_congr leftHypothesis rightHypothesis
  | null | slot | compare | choose | foreign => exact Iff.rfl

end Tree

/-! ## Values -/

/-- The negation of a truth value. Any other value stays. -/
def Value.negated : Value → Value
  | .bool flag => .bool !flag
  | other => other

theorem Value.negated_eq_true {value : Value} :
    value.negated = .bool true ↔ value = .bool false := by
  cases value <;> simp [negated]

theorem Value.negated_eq_false {value : Value} :
    value.negated = .bool false ↔ value = .bool true := by
  cases value <;> simp [negated]

theorem Value.negated_eq_null {value : Value} : value.negated = .null ↔ value = .null := by
  cases value <;> simp [negated]

theorem Value.ofTruth_not (truth? : Option Bool) :
    ofTruth (truth?.map (!·)) = (ofTruth truth?).negated := by
  cases truth? <;> rfl

theorem Connective.combine_dual (operator : Connective) (left right : Bool) :
    operator.dual.combine (!left) (!right) = !operator.combine left right := by
  cases operator
  · exact (Bool.not_and left right).symm
  · exact (Bool.not_or left right).symm

/-- The dual connective negates the value on negated operands. -/
theorem Connective.apply_dual (operator : Connective) (left right : Value) :
    operator.dual.apply (.value left.negated) (.value right.negated) =
      (operator.apply (.value left) (.value right)).negated := by
  cases left with
  | bool first =>
      cases right with
      | bool second => exact congrArg Value.bool (operator.combine_dual first second)
      | null | number => rfl
  | null | number => rfl

/-- The opposite comparison is decided on the same data, and negates the value there. -/
theorem Comparison.apply_opposite (operator : Comparison) (left right : Datum) :
    operator.opposite.apply left right = (operator.apply left right).negated := by
  unfold Comparison.apply
  rw [← Value.ofTruth_not]
  cases operator with
  | eq => rfl
  | ne => cases equality? left right <;> simp [opposite]
  | ge | gt | le | lt =>
      cases order? left right with
      | none => rfl
      | some ordering => cases ordering <;> rfl

namespace Expr

variable {slots : Int → Datum} {test : Expr}

/-- A test has a value, and its complement has the negated one. -/
theorem eval_complement (slots : Int → Datum) (isTest : test.isTest = true) :
    ∃ value, eval slots test = .value value ∧
      eval slots test.complement = .value value.negated := by
  induction test with
  | connect operator left right leftHypothesis rightHypothesis =>
      obtain ⟨leftTest, rightTest⟩ := Bool.and_eq_true_iff.mp isTest
      obtain ⟨first, leftValue, leftNegated⟩ := leftHypothesis leftTest
      obtain ⟨second, rightValue, rightNegated⟩ := rightHypothesis rightTest
      refine ⟨_, eval_connect operator left right, ?_⟩
      rw [Tree.complement, eval_connect, leftNegated, rightNegated, leftValue, rightValue,
        operator.apply_dual]
  | compare operator left right =>
      refine ⟨_, eval_compare operator left right, ?_⟩
      rw [Tree.complement, eval_compare, operator.apply_opposite]
  | null | slot | choose | foreign => cases isTest

/-- A choice by a test is the choice by its complement with the branches exchanged. -/
theorem eval_choose_complement (isTest : test.isTest = true) (consequent alternative : Expr) :
    eval slots (.choose test.complement alternative consequent) =
      eval slots (.choose test consequent alternative) := by
  obtain ⟨value, result, negated⟩ := eval_complement slots isTest
  rw [eval_choose, eval_choose, result, negated]
  cases value with
  | bool flag => cases flag <;> rfl
  | null | number => rfl

end Expr

/-! ## Choices -/

/-- A choice by the complement, with the branches exchanged, has the slots of the choice. -/
theorem Tree.everySlot_choose_complement {Foreign : Type} {Holds : Int → Prop}
    {test consequent alternative : Tree Foreign} :
    (choose test.complement alternative consequent).EverySlot Holds ↔
      (choose test consequent alternative).EverySlot Holds := by
  simp only [EverySlot, everySlot_complement, and_comm]

/-- On rows of values, a batch of the choice by a complement gives what the choice evaluates
to. -/
theorem batch_values_choose_complement {batch : BatchPlan} {test consequent alternative : Expr}
    {rows : List Row} (isTest : test.isTest = true)
    (same : batch.expr = .choose test.complement alternative consequent)
    (nonnegative : ∀ index ∈ (Tree.choose test consequent alternative).slots, 0 ≤ index)
    (held : ∀ row ∈ rows, HoldsValues (Tree.choose test consequent alternative).slots row) :
    batch.values rows =
      .ok (rows.map fun row => Expr.eval row.read (.choose test consequent alternative)) := by
  have slotsKept {Holds : Int → Prop}
      (every : ∀ index ∈ (Tree.choose test consequent alternative).slots, Holds index) :
      ∀ index ∈ (Tree.choose test.complement alternative consequent).slots, Holds index :=
    Tree.everySlot_iff.mp (Tree.everySlot_choose_complement.mpr (Tree.everySlot_iff.mpr every))
  rw [batch_values_of_expr same (slotsKept nonnegative)
    fun row member => slotsKept (held row member)]
  simp only [Expr.eval_choose_complement isTest]

/-- The complement of a test is true where the test is false, false where it is true, and null
where it is null. So a choice may be made by the complement, with the branches exchanged: in
an evaluation whatever the slots hold, and in a batch on all rows that hold values. -/
theorem complement_negates {test : Expr} (isTest : test.isTest = true) :
    (∀ slots : Int → Datum,
      (Expr.eval slots test.complement = .value (.bool true) ↔
        Expr.eval slots test = .value (.bool false)) ∧
      (Expr.eval slots test.complement = .value (.bool false) ↔
        Expr.eval slots test = .value (.bool true)) ∧
      (Expr.eval slots test.complement = .value .null ↔
        Expr.eval slots test = .value .null) ∧
      ∀ consequent alternative : Expr,
        Expr.eval slots (.choose test.complement alternative consequent) =
          Expr.eval slots (.choose test consequent alternative)) ∧
    ∀ (lenient compiled : Bool) (root root' : Tree Datum) (consequent alternative : Expr)
      (rows : List Row),
      root.proper? = .ok (.choose test consequent alternative) →
      root'.proper? = .ok (.choose test.complement alternative consequent) →
      (∀ index ∈ (Tree.choose test consequent alternative).slots,
        0 ≤ index ∧ index ≤ greatestIndex) →
      (∀ row ∈ rows, ∀ index ∈ (Tree.choose test consequent alternative).slots, ∀ datum,
        row.slot? index = some datum → ∃ value, datum = .value value) →
      ∃ batch batch' data,
        (BatchPlan.build lenient compiled (.ofTree root)).outcome = .ok batch ∧
        (BatchPlan.build lenient compiled (.ofTree root')).outcome = .ok batch' ∧
        batch.values rows = .ok data ∧ batch'.values rows = .ok data := by
  constructor
  · intro slots
    obtain ⟨value, result, negated⟩ := Expr.eval_complement slots isTest
    refine ⟨?_, ?_, ?_, Expr.eval_choose_complement isTest⟩
    · rw [result, negated, Datum.value.injEq, Datum.value.injEq, Value.negated_eq_true]
    · rw [result, negated, Datum.value.injEq, Datum.value.injEq, Value.negated_eq_false]
    · rw [result, negated, Datum.value.injEq, Datum.value.injEq, Value.negated_eq_null]
  · intro lenient compiled root root' consequent alternative rows proper proper' inRange held
    have nonnegative : ∀ index ∈ (Tree.choose test consequent alternative).slots, 0 ≤ index :=
      fun index member => (inRange index member).1
    obtain ⟨batch, built, same⟩ := batch_build_of_proper lenient compiled proper
    obtain ⟨batch', built', same'⟩ := batch_build_of_proper lenient compiled proper'
    exact ⟨batch, batch', _, built, built', batch_values_of_expr same nonnegative held,
      batch_values_choose_complement isTest same' nonnegative held⟩

/-- Slots 1 and 2 are compared, and slot 3 is tested for null. -/
def risingOrAbsent : Expr :=
  .connect .or (.compare .lt (.slot 1) (.slot 2)) (.compare .eq (.slot 3) .null)

/-- Rows on which `risingOrAbsent` is true, false and null. -/
def comparedRows : List Row :=
  [Assignment.toRow ⟨[(1, .number ⟨false, 1, 0⟩), (2, .number ⟨false, 2, 0⟩)]⟩,
    Assignment.toRow ⟨[(1, .number ⟨false, 20, -1⟩), (2, .number ⟨false, 2, 0⟩),
      (3, .number ⟨false, 0, 0⟩)]⟩,
    Assignment.toRow ⟨[(1, .number ⟨false, 1, 0⟩), (3, .number ⟨false, 0, 0⟩)]⟩]

/-- The complement of `risingOrAbsent` is its De Morgan dual, and the choice by it hands on
slot 1 in the first row, slot 2 in the second, and null in the third, where the number has
nothing to be compared with. -/
theorem complemented_choice_on_rows :
    (∀ slots : Int → Datum,
      Expr.eval slots (.connect .and (.compare .ge (.slot 1) (.slot 2))
          (.compare .ne (.slot 3) .null)) = .value (.bool true) ↔
        Expr.eval slots risingOrAbsent = .value (.bool false)) ∧
    ∃ batch, (BatchPlan.build false true (.ofTree (.choose (.connect .and
          (.compare .ge (.slot 1) (.slot 2)) (.compare .ne (.slot 3) .null))
          (.slot 2) (.slot 1)))).outcome = .ok batch ∧
      batch.values comparedRows =
        .ok [.value (.number ⟨false, 1, 0⟩), .value (.number ⟨false, 2, 0⟩), .value .null] := by
  have isTest : risingOrAbsent.isTest = true := rfl
  have held : ∀ row ∈ comparedRows, ∀ slots, HoldsValues slots row := by
    intro row member slots
    simp only [comparedRows, List.mem_cons, List.not_mem_nil, or_false] at member
    rcases member with rfl | rfl | rfl <;> exact holdsValues_toRow _
  have inRange : ∀ index ∈ (Tree.choose risingOrAbsent (.slot 1) (.slot 2)).slots,
      0 ≤ index ∧ index ≤ greatestIndex :=
    Tree.everySlot_iff.mp (by simp [Tree.EverySlot, risingOrAbsent, greatestIndex])
  obtain ⟨negates, exchanges⟩ := complement_negates isTest
  refine ⟨fun slots => (negates slots).1, ?_⟩
  obtain ⟨batch, batch', data, built, built', values, values'⟩ :=
    exchanges false true
      (.choose (.connect .or (.compare .lt (.slot 1) (.slot 2)) (.compare .eq (.slot 3) .null))
        (.slot 1) (.slot 2))
      (.choose (.connect .and (.compare .ge (.slot 1) (.slot 2)) (.compare .ne (.slot 3) .null))
        (.slot 2) (.slot 1))
      (.slot 1) (.slot 2) comparedRows rfl rfl inRange (fun row member => held row member _)
  have same : batch.expr = .choose risingOrAbsent (.slot 1) (.slot 2) := by
    cases built
    rfl
  have whole : batch.values comparedRows =
      .ok [.value (.number ⟨false, 1, 0⟩), .value (.number ⟨false, 2, 0⟩), .value .null] :=
    batch_values_of_expr same (fun index member => (inRange index member).1)
      fun row member => held row member _
  cases Except.ok.inj (values.symm.trans whole)
  exact ⟨batch', built', values'⟩

end SlotLogic
