import SlotLogic.Proofs.Batch.Offender
import SlotLogic.Proofs.Evaluation.Counterpart

/-!
Contract: what a plan or a batch gives depends on what the rows hold in the slots of the
expression, and on nothing else in them.

Owns: rows that agree on slots, and evaluations, lanes, checks and runs on such rows.

An entry with null counts as no entry: both read as null, and a result that is null is taken from
no slot. All numbers of a batch share one ranking, but only those in the slots of the expression
are ranked.

Does not own: which slots matter for a result.
-/

set_option autoImplicit false

namespace SlotLogic

/-- A row holds nothing in a slot, or null. -/
def Row.Vacant (row : Row) (index : Int) : Prop :=
  row.slot? index = none ∨ row.slot? index = some (.value .null)

/-- Two rows hold the same in each of some slots, where null is the same as nothing. -/
def AgreeOn (slots : List Int) (row row' : Row) : Prop :=
  ∀ index ∈ slots, row.slot? index = row'.slot? index ∨ row.Vacant index ∧ row'.Vacant index

/-- Two rows read the same in some slots. -/
def SameReads (slots : List Int) (row row' : Row) : Prop :=
  ∀ index ∈ slots, row.read index = row'.read index

variable {slots : List Int} {row row' : Row} {rows rows' : List Row}

theorem Row.Vacant.read {index : Int} (vacant : row.Vacant index) :
    row.read index = .value .null := by
  unfold Row.read
  rcases vacant with absent | null
  · rw [absent, Option.getD_none]
  · rw [null, Option.getD_some]

theorem AgreeOn.sameReads (agree : AgreeOn slots row row') : SameReads slots row row' := by
  intro index listed
  rcases agree index listed with same | ⟨vacant, vacant'⟩
  · rw [Row.read, same, Row.read]
  · rw [vacant.read, vacant'.read]

/-- What is the same for each two rows is the same for the lists. -/
theorem map_eq_of_forall₂ {Result : Type} {give : Row → Result}
    (same : List.Forall₂ (fun row row' => give row = give row') rows rows') :
    rows.map give = rows'.map give := by
  induction same with
  | nil => rfl
  | cons first _ inductionHypothesis =>
      rw [List.map_cons, List.map_cons, first, inductionHypothesis]

/-! ## Expressions -/

theorem counterpart_refl (datum : Datum) : Counterpart Eq datum datum := by
  by_cases isNumber : ∃ number, datum = .value (.number number)
  · obtain ⟨number, rfl⟩ := isNumber
    exact .number rfl
  · exact .same (not_exists.mp isNumber)

theorem Counterpart.eq {first second : Datum} (counterpart : Counterpart Eq first second) :
    first = second := by
  cases counterpart with
  | number paired => rw [paired]
  | same => rfl

/-- An evaluation is the same on rows that read the same in its slots. -/
theorem run_of_sameReads {expr : Expr} (alike : SameReads expr.slots row row') :
    expr.run row.read = expr.run row'.read := by
  have kept : OrderKept (Eq : Decimal → Decimal → Prop) := by
    rintro left _ right _ rfl rfl
    rfl
  have counterparts : expr.EverySlot fun index =>
      Counterpart Eq (row.read index) (row'.read index) := by
    apply Tree.everySlot_iff.mpr
    intro index listed
    rw [alike index listed]
    exact counterpart_refl _
  obtain ⟨result, reads⟩ := Expr.run_counterpart kept counterparts
  exact congrArg₂ Evaluation.mk result.eq reads.symm

theorem lane_congr {expr : Expr} {lanes lanes' : Int → Lane}
    (same : expr.EverySlot fun index => lanes index = lanes' index) :
    expr.lane lanes = expr.lane lanes' := by
  induction expr with
  | null => rfl
  | slot index => rw [Expr.lane, Expr.lane, same]
  | connect operator left right leftHypothesis rightHypothesis =>
      rw [Expr.lane, Expr.lane, leftHypothesis same.1, rightHypothesis same.2]
  | compare operator left right leftHypothesis rightHypothesis =>
      rw [Expr.lane, Expr.lane, leftHypothesis same.1, rightHypothesis same.2]
  | choose test consequent alternative testHypothesis thenHypothesis elseHypothesis =>
      rw [Expr.lane, Expr.lane, testHypothesis same.1, thenHypothesis same.2.1,
        elseHypothesis same.2.2]
  | foreign leaf => exact leaf.elim

/-! ## Batches -/

theorem firstFault_of_sameReads (alike : List.Forall₂ (SameReads slots) rows rows')
    (start : Nat) :
    BatchPlan.firstFault slots start rows = BatchPlan.firstFault slots start rows' := by
  induction alike generalizing start with
  | nil => rfl
  | @cons row row' rest rest' first _ inductionHypothesis =>
      have faults : ∀ index ∈ slots,
          BatchPlan.faultAt start row index = BatchPlan.faultAt start row' index := by
        intro index listed
        rw [BatchPlan.faultAt, first index listed, BatchPlan.faultAt]
      rw [BatchPlan.firstFault, BatchPlan.firstFault, inductionHypothesis (start + 1),
        ← List.head?_filterMap, ← List.head?_filterMap, List.filterMap_congr faults]

/-- The numbers of a batch are those in its slots. -/
theorem numbers_of_sameReads (alike : List.Forall₂ (SameReads slots) rows rows') :
    BatchPlan.numbers slots rows = BatchPlan.numbers slots rows' := by
  unfold BatchPlan.numbers
  rw [List.flatMap_def, List.flatMap_def]
  congr 1
  apply map_eq_of_forall₂
  apply alike.imp
  intro row row' first
  apply List.filterMap_congr
  intro index listed
  rw [first index listed]

/-- The lanes of the rows are told by what the rows hold in the slots of the plan. -/
theorem batch_run_of_sameReads (plan : BatchPlan)
    (alike : List.Forall₂ (SameReads plan.slots) rows rows') : plan.run rows = plan.run rows' := by
  have lanes : (rows.map fun row => plan.expr.lane (encodedLane plan.slots rows row)) =
      rows'.map fun row => plan.expr.lane (encodedLane plan.slots rows' row) := by
    unfold encodedLane
    rw [numbers_of_sameReads alike]
    apply map_eq_of_forall₂
    apply alike.imp
    intro row row' first
    apply lane_congr
    apply Tree.everySlot_iff.mpr
    intro index listed
    rw [← plan.slots_eq] at listed
    rw [first index listed]
  rw [BatchPlan.run, firstFault_of_sameReads alike, lanes_eq, lanes, ← lanes_eq, BatchPlan.run]

/-- A run that is not refused gives the values of the evaluations, so batches have the same values
on rows that read the same. -/
theorem batch_values_of_sameReads (plan : BatchPlan)
    (nonnegative : ∀ index ∈ plan.slots, 0 ≤ index)
    (alike : List.Forall₂ (SameReads plan.slots) rows rows') :
    plan.values rows = plan.values rows' := by
  have same := batch_run_of_sameReads plan alike
  cases ran : plan.run rows with
  | error fault => rw [BatchPlan.values, BatchPlan.values, ← same, ran]; rfl
  | ok columns =>
      have decoded := decode_of_run plan nonnegative ran
      have decoded' := decode_of_run plan nonnegative (same ▸ ran)
      have results : (rows.map fun row => plan.expr.eval row.read) =
          rows'.map fun row => plan.expr.eval row.read := by
        apply map_eq_of_forall₂
        apply alike.imp
        intro row row' first
        rw [plan.slots_eq] at first
        rw [Expr.eval, run_of_sameReads first, Expr.eval]
      rw [BatchPlan.values, BatchPlan.values, ← same, ran]
      exact decoded.trans (results ▸ decoded'.symm)

/-- What a plan gives on a row, and what a batch gives on rows, its refusal included, depends
only on what the rows hold in the slots of the expression, and null there is the same as
nothing. -/
theorem results_depend_on_slots_only {root : Tree Datum} {expr : Expr} (lenient compiled : Bool)
    (proper : root.proper? = .ok expr) :
    ∃ plan batch, (Plan.build lenient (.ofTree root)).outcome = .ok plan ∧
      (BatchPlan.build lenient compiled (.ofTree root)).outcome = .ok batch ∧
      plan.slots = expr.slots ∧ batch.slots = expr.slots ∧
      (∀ row row' : Row, AgreeOn expr.slots row row' → plan.run row = plan.run row') ∧
      ((∀ index ∈ expr.slots, 0 ≤ index ∧ index ≤ greatestIndex) →
        ∀ rows rows' : List Row, List.Forall₂ (AgreeOn expr.slots) rows rows' →
          batch.run rows = batch.run rows' ∧ batch.values rows = batch.values rows') := by
  obtain ⟨plan, planned, rfl⟩ := plan_build_of_proper lenient proper
  obtain ⟨batch, built, same⟩ := batch_build_of_proper lenient compiled proper
  have slots : batch.slots = plan.expr.slots := by rw [batch.slots_eq, same]
  refine ⟨plan, batch, planned, built, plan.slots_eq, slots, ?_, ?_⟩
  · intro row row' agree
    rw [plan.run_eq, plan.run_eq]
    exact run_of_sameReads agree.sameReads
  · rw [← slots]
    intro inRange rows rows' agree
    have alike : List.Forall₂ (SameReads batch.slots) rows rows' :=
      agree.imp fun _ _ agree => agree.sameReads
    exact ⟨batch_run_of_sameReads batch alike,
      batch_values_of_sameReads batch (fun index listed => (inRange index listed).1) alike⟩

/-- Rows with a number, a stray datum and null in the slots of `secondOrThird`. -/
def sparseRows : List Row :=
  [[(.integer 1, .value (.bool true)), (.integer 2, .value (.number ⟨false, 110, -2⟩))],
    [(.integer 1, .value (.bool false)), (.integer 2, .value (.number ⟨false, 9, 0⟩)),
      (.integer 3, .value .null)]]

/-- The same in the slots, with null for nothing, nothing for null, and more under other keys. -/
def crowdedRows : List Row :=
  [[(.text "2", .none), (.integer 3, .value .null), (.integer 1, .value (.bool true)),
      (.integer 2, .value (.number ⟨false, 110, -2⟩))],
    [(.integer 1, .value (.bool false)), (.integer 7, .value (.number ⟨false, 11, -1⟩)),
      (.integer 2, .value (.number ⟨false, 9, 0⟩)), (.none, .list [.none])]]

/-- The crowded rows have the run of the sparse ones: slot 2 in the first row, null in the
second. -/
theorem crowded_rows_run_as_sparse_ones :
    ∃ plan batch, (Plan.build false (.ofTree secondOrThird)).outcome = .ok plan ∧
      (BatchPlan.build false true (.ofTree secondOrThird)).outcome = .ok batch ∧
      List.Forall₂ (fun row row' => plan.run row = plan.run row') sparseRows crowdedRows ∧
      batch.run crowdedRows = .ok ⟨[2, 0], [false, false], [2, -1]⟩ ∧
      batch.values sparseRows = batch.values crowdedRows := by
  have proper : (secondOrThird : Tree Datum).proper? = .ok secondOrThird := rfl
  have inRange : ∀ index ∈ (secondOrThird : Expr).slots, 0 ≤ index ∧ index ≤ greatestIndex :=
    Tree.everySlot_iff.mp (by simp [secondOrThird, Tree.EverySlot, greatestIndex])
  have agree : List.Forall₂ (AgreeOn (secondOrThird : Expr).slots) sparseRows crowdedRows := by
    refine .cons (Tree.everySlot_iff.mp ?_) (.cons (Tree.everySlot_iff.mp ?_) .nil)
    · exact ⟨.inl rfl, .inl rfl, .inr ⟨.inl rfl, .inr rfl⟩⟩
    · exact ⟨.inl rfl, .inl rfl, .inr ⟨.inr rfl, .inl rfl⟩⟩
  obtain ⟨plan, batch, built, batchBuilt, -, -, onRow, onRows⟩ :=
    results_depend_on_slots_only false true proper
  obtain ⟨sameRun, sameValues⟩ := onRows inRange sparseRows crowdedRows agree
  refine ⟨plan, batch, built, batchBuilt, agree.imp onRow, ?_, sameValues⟩
  rw [← sameRun]
  cases batchBuilt
  decide +kernel

end SlotLogic
