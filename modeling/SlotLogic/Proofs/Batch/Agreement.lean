import SlotLogic.Batch.Plan
import SlotLogic.Proofs.Batch.Lane

/-!
Contract: a batch gives each row the value that the plain evaluation gives it.

Owns: the decoding of the lane of a result, rows that hold values in the slots of an
expression, the expression of a batch plan, the lanes of a run, and the agreement of a
batch with the evaluation row by row.

Every number in the slots of a plan is ranked and every slot is entered, so the look-ups of
a run succeed. A number is never computed from its lane. It is found again in the row under
the slot that the lane names, so it comes back in the form in which it was written.

Does not own: batches that are refused.
-/

set_option autoImplicit false

namespace SlotLogic

variable {ranked : List Decimal} {rows : List Row} {slots : List Int}

/-! ## Decoding -/

/-- The lane of a result is decoded to the result, if its origin is a slot of the row
that holds it. -/
theorem decodeLane_ofResult (row : Row) (value : Value) (origin? : Option Int)
    (taken : ∀ index, origin? = some index → 0 ≤ index ∧ row.read index = .value value)
    (numeric : ∀ number, value = .number number → ∃ index, origin? = some index) :
    Columns.decodeLane row (Lane.ofResult ranked value origin?).sort.code
      (Lane.ofResult ranked value origin?).flag (Lane.ofResult ranked value origin?).source =
        .ok (.value value) := by
  by_cases isNull : value = .null
  · subst isNull
    rfl
  have sortCode : (Lane.ofResult ranked value origin?).sort.code ≠ ValueSort.null.code := by
    cases value with
    | null => exact absurd rfl isNull
    | bool flag =>
        show ValueSort.bool.code ≠ ValueSort.null.code
        decide
    | number number =>
        show ValueSort.number.code ≠ ValueSort.null.code
        decide
  have source : (Lane.ofResult ranked value origin?).source = origin?.getD Lane.noSource :=
    if_neg isNull
  unfold Columns.decodeLane
  rw [if_neg sortCode, source]
  cases origin? with
  | some index =>
      obtain ⟨nonnegative, read⟩ := taken index rfl
      -- What is read is not null, so the row has an entry for the slot.
      cases entry : row.slot? index with
      | none =>
          rw [Row.read, entry] at read
          cases read
          exact absurd rfl isNull
      | some datum =>
          rw [Row.read, entry] at read
          simp only [Option.getD_some] at read ⊢
          rw [if_pos nonnegative, entry, read]
  | none =>
      cases value with
      | null => exact absurd rfl isNull
      | bool flag => rfl
      | number number =>
          obtain ⟨index, none⟩ := numeric number rfl
          cases none

/-- Columns of lanes are decoded row by row. -/
theorem decode_ofLanes (lane : Row → Lane) (result : Row → Datum)
    (decoded : ∀ row ∈ rows, Columns.decodeLane row (lane row).sort.code (lane row).flag
      (lane row).source = .ok (result row)) :
    (Columns.ofLanes (rows.map lane)).decode rows = .ok (rows.map result) := by
  have each : Columns.decodeLanes rows ((rows.map lane).map fun lane => lane.sort.code)
      ((rows.map lane).map Lane.flag) ((rows.map lane).map Lane.source) =
        .ok (rows.map result) := by
    induction rows with
    | nil => rfl
    | cons row rest inductionHypothesis =>
        have first := decoded row (List.mem_cons_self ..)
        have later := inductionHypothesis fun other member =>
          decoded other (List.mem_cons_of_mem _ member)
        simp only [List.map_cons, Columns.decodeLanes, first, later]
        rfl
  unfold Columns.decode
  rw [if_pos (by simp [Columns.size, Columns.ofLanes])]
  exact each

/-! ## Rows of values -/

/-- Every slot of a list that a row has an entry for holds a value. -/
def HoldsValues (slots : List Int) (row : Row) : Prop :=
  ∀ index ∈ slots, ∀ datum, row.slot? index = some datum → ∃ value, datum = .value value

theorem HoldsValues.read {row : Row} (holds : HoldsValues slots row) {index : Int}
    (member : index ∈ slots) : ∃ value, row.read index = .value value := by
  unfold Row.read
  cases entry : row.slot? index with
  | none => exact ⟨.null, rfl⟩
  | some datum => exact holds index member datum entry

/-- An assignment is a row of values. -/
theorem holdsValues_toRow (assignment : Assignment) : HoldsValues slots assignment.toRow := by
  intro index _ datum entry
  obtain ⟨pair, found, rfl⟩ := Option.map_eq_some_iff.mp entry
  obtain ⟨assigned, -, rfl⟩ := List.mem_map.mp (List.mem_of_find?_eq_some found)
  exact ⟨assigned.2, rfl⟩

theorem firstFault_eq_none (position : Nat) (held : ∀ row ∈ rows, HoldsValues slots row) :
    BatchPlan.firstFault slots position rows = none := by
  induction rows generalizing position with
  | nil => rfl
  | cons row rest inductionHypothesis =>
      have here : slots.findSome? (BatchPlan.faultAt position row) = none := by
        rw [List.findSome?_eq_none_iff]
        intro index member
        obtain ⟨value, read⟩ := (held row (List.mem_cons_self ..)).read member
        rw [BatchPlan.faultAt, read]
        rfl
      rw [BatchPlan.firstFault, here, Option.none_or]
      exact inductionHypothesis (position + 1) fun other member =>
        held other (List.mem_cons_of_mem _ member)

/-- The numbers that rows hold in the slots are the numbers of the batch. -/
theorem isRanked_of_read {row : Row} {index : Int} {value : Value} (inRows : row ∈ rows)
    (inSlots : index ∈ slots) (read : row.read index = .value value) :
    value.IsRanked (ranking (BatchPlan.numbers slots rows)) := by
  cases value with
  | number number =>
      apply ranked_of_mem
      apply List.mem_flatMap.mpr
      exact ⟨row, inRows, List.mem_filterMap.mpr ⟨index, inSlots, by rw [read]; rfl⟩⟩
  | null | bool => trivial

/-- The lane from which a run starts, for one slot of one of its rows. -/
def encodedLane (slots : List Int) (rows : List Row) (row : Row) (slot : Int) : Lane :=
  .holding (ranking (BatchPlan.numbers slots rows)) (row.read slot)

/-- All numbers of the rows are ranked, so each slot of a row has its lane. -/
theorem ofDatum_eq_encodedLane {row : Row} {slot : Int} (inRows : row ∈ rows)
    (inSlots : slot ∈ slots) :
    Lane.ofDatum (ranking (BatchPlan.numbers slots rows)) (row.read slot) =
      .ok (encodedLane slots rows row slot) := by
  apply Lane.ofDatum_eq (ranking_ascending _)
  intro number read
  exact isRanked_of_read inRows inSlots read

/-! ## Batch plans -/

namespace BatchPlan

/-- The tree of a batch plan as an expression. -/
def expr (plan : BatchPlan) : Expr :=
  plan.root.expr

theorem proper (plan : BatchPlan) : plan.root.proper? = .ok plan.expr :=
  (Tree.proper_of_make plan.composed).1

theorem slots_eq (plan : BatchPlan) : plan.slots = plan.expr.slots :=
  Expr.slots_of_proper plan.proper

theorem lane_eq (plan : BatchPlan) : plan.lane = lowerings.on plan.expr :=
  (Tree.proper_of_make plan.composed).2

variable {root : Tree Datum} {expr : Expr} {plan : BatchPlan}

theorem root_of_compose {compiled : Bool} {source? : Option String}
    (made : compose compiled source? root = .ok plan) :
    plan.root = root ∧ plan.source? = source? ∧ plan.compiled = compiled := by
  unfold compose at made
  split at made
  · cases made
    exact ⟨rfl, rfl, rfl⟩
  · cases made

theorem compose_of_lower (compiled : Bool) (source? : Option String) {lane : Lowered}
    (composed : root.lower = .ok lane) :
    compose compiled source? root = .ok ⟨root, source?, compiled, lane, composed⟩ := by
  unfold compose
  split
  · rename_i found
    cases found.symm.trans composed
    rfl
  · rename_i fails
    cases fails.symm.trans composed

/-- An expression has a batch plan. -/
theorem compose_of_proper (compiled : Bool) (source? : Option String)
    (proper : root.proper? = .ok expr) :
    ∃ plan, compose compiled source? root = .ok plan ∧ plan.expr = expr :=
  ⟨_, compose_of_lower compiled source? (Tree.make_of_proper lowerings proper),
    Tree.expr_of_proper proper⟩

end BatchPlan

theorem batch_build_tree (lenient compiled : Bool) (root : Tree Datum) :
    (BatchPlan.build lenient compiled (.tree root)).outcome =
      BatchPlan.compose compiled none root := by
  rw [BatchPlan.build, Logged.build_outcome]
  rfl

/-- A tree without foreign leaves is built into a batch plan of its expression. -/
theorem batch_build_of_proper (lenient compiled : Bool) {root : Tree Datum} {expr : Expr}
    (proper : root.proper? = .ok expr) :
    ∃ batch, (BatchPlan.build lenient compiled (.ofTree root)).outcome = .ok batch ∧
      batch.expr = expr := by
  rw [ofTree_of_proper proper, batch_build_tree]
  exact BatchPlan.compose_of_proper compiled none proper

/-! ## Runs -/

/-- Slots whose lanes are found are entered with these, in their order. -/
theorem encodeRow_eq {row : Row} {held : Int → Lane}
    (found : ∀ slot ∈ slots, Lane.ofDatum ranked (row.read slot) = .ok (held slot)) :
    BatchPlan.encodeRow ranked row slots = .ok (slots.map fun slot => (slot, held slot)) := by
  induction slots with
  | nil => rfl
  | cons slot rest inductionHypothesis =>
      obtain ⟨first, later⟩ := List.forall_mem_cons.mp found
      rw [BatchPlan.encodeRow, first, inductionHypothesis later]
      rfl

theorem mapM_ok {Fault Item Result : Type} {make : Item → Except Fault Result}
    {result : Item → Result} {items : List Item}
    (each : ∀ item ∈ items, make item = .ok (result item)) :
    items.mapM make = .ok (items.map result) := by
  induction items with
  | nil => rfl
  | cons item rest inductionHypothesis =>
      obtain ⟨first, later⟩ := List.forall_mem_cons.mp each
      rw [List.mapM_cons, first, inductionHypothesis later]
      rfl

/-- A row is entered for every slot of the plan, so no slot is looked up in vain. -/
theorem laneOf_eq (plan : BatchPlan) {row : Row} {held : Int → Lane}
    (found : ∀ slot ∈ plan.slots, Lane.ofDatum ranked (row.read slot) = .ok (held slot)) :
    plan.laneOf ranked row = .ok (plan.expr.lane held) := by
  have entered : plan.expr.EverySlot fun index =>
      (plan.slots.map fun slot => (slot, held slot)).lookup index = some (held index) := by
    apply Tree.everySlot_iff.mpr
    intro index member
    rw [← plan.slots_eq] at member
    exact List.lookup_graph held member
  rw [BatchPlan.laneOf, encodeRow_eq found, plan.lane_eq]
  exact lowerings_on entered

/-- The look-ups of a run never fail: it gives the lane of every row. -/
theorem lanes_eq (plan : BatchPlan) (rows : List Row) :
    plan.lanes rows =
      .ok (rows.map fun row => plan.expr.lane (encodedLane plan.slots rows row)) :=
  mapM_ok fun _ inRows => laneOf_eq plan fun _ inSlots => ofDatum_eq_encodedLane inRows inSlots

/-- Rows of values are not refused. -/
theorem run_of_holdsValues (plan : BatchPlan) (held : ∀ row ∈ rows, HoldsValues plan.slots row) :
    plan.run rows =
      .ok (.ofLanes (rows.map fun row => plan.expr.lane (encodedLane plan.slots rows row))) := by
  rw [BatchPlan.run, firstFault_eq_none 0 held, lanes_eq]
  rfl

/-- The lane of a row of values is the lane of its value with its origin. -/
theorem lane_of_row (plan : BatchPlan) {row : Row} (inRows : row ∈ rows)
    (held : ∀ row ∈ rows, HoldsValues plan.slots row) :
    ∃ value, plan.expr.eval row.read = .value value ∧
      plan.expr.lane (encodedLane plan.slots rows row) =
        Lane.ofResult (ranking (BatchPlan.numbers plan.slots rows)) value
          (plan.expr.origin? row.read) := by
  have ascending := ranking_ascending (BatchPlan.numbers plan.slots rows)
  -- The ranking is made from all rows, so it holds the numbers of this one.
  have every : plan.expr.EverySlot fun index => ∃ value, row.read index = .value value ∧
      value.IsRanked (ranking (BatchPlan.numbers plan.slots rows)) := by
    apply Tree.everySlot_iff.mpr
    intro index member
    rw [← plan.slots_eq] at member
    obtain ⟨value, read⟩ := (held row inRows).read member
    exact ⟨value, read, isRanked_of_read inRows member read⟩
  obtain ⟨value, result, -, lane⟩ := lane_of_expr ascending every
  exact ⟨value, result, lane⟩

/-- A batch plan gives the rows the results of their evaluation. -/
theorem batch_values (plan : BatchPlan) (nonnegative : ∀ index ∈ plan.slots, 0 ≤ index)
    (held : ∀ row ∈ rows, HoldsValues plan.slots row) :
    plan.values rows = .ok (rows.map fun row => plan.expr.eval row.read) := by
  rw [BatchPlan.values, run_of_holdsValues plan held]
  apply decode_ofLanes
  intro row inRows
  obtain ⟨value, result, lane⟩ := lane_of_row plan inRows held
  rw [lane, result]
  apply decodeLane_ofResult
  · intro index origin
    rw [plan.slots_eq] at nonnegative
    have slot := Expr.holds_of_origin (Tree.everySlot_iff.mpr nonnegative) origin
    refine ⟨slot, ?_⟩
    rw [← Expr.eval_of_origin origin, result]
  · rintro number rfl
    exact Expr.origin_of_number result

theorem batch_values_of_expr {batch : BatchPlan} {expr : Expr} (same : batch.expr = expr)
    (nonnegative : ∀ index ∈ expr.slots, 0 ≤ index)
    (held : ∀ row ∈ rows, HoldsValues expr.slots row) :
    batch.values rows = .ok (rows.map fun row => expr.eval row.read) := by
  subst same
  rw [← batch.slots_eq] at nonnegative held
  exact batch_values batch nonnegative held

/-- Batch and plain evaluation agree: on a tree without foreign leaves both plans are
built, and where the rows hold values in its slots, the batch gives them one by one
what the plan gives, in the same form. -/
theorem batch_agrees_with_plan {root : Tree Datum} {expr : Expr} {rows : List Row}
    (lenient compiled : Bool) (proper : root.proper? = .ok expr)
    (inRange : ∀ index ∈ expr.slots, 0 ≤ index ∧ index ≤ greatestIndex)
    (held : ∀ row ∈ rows, ∀ index ∈ expr.slots, ∀ datum, row.slot? index = some datum →
      ∃ value, datum = .value value) :
    ∃ batch plan,
      (BatchPlan.build lenient compiled (.ofTree root)).outcome = .ok batch ∧
      (Plan.build lenient (.ofTree root)).outcome = .ok plan ∧
      batch.values rows = .ok (rows.map fun row => (plan.run row).result) := by
  obtain ⟨batch, built, sameBatch⟩ := batch_build_of_proper lenient compiled proper
  obtain ⟨plan, planned, samePlan⟩ := plan_build_of_proper lenient proper
  refine ⟨batch, plan, built, planned, ?_⟩
  rw [batch_values_of_expr sameBatch (fun index member => (inRange index member).1) held]
  simp only [plan.run_eq, samePlan]
  rfl

/-- A choice that hands on what slot 2 or slot 3 holds, or null. -/
def handedOn : Tree Datum :=
  .choose (.connect .or (.compare .eq (.slot 1) (.slot 2)) (.compare .lt (.slot 3) (.slot 1)))
    (.slot 2) (.choose (.compare .ge (.slot 1) (.slot 3)) (.slot 3) .null)

/-- Rows in which equal numbers are written in different forms. -/
def writtenRows : List Row :=
  [Assignment.toRow ⟨[(1, .number ⟨false, 11, -1⟩), (2, .number ⟨false, 110, -2⟩),
      (3, .number ⟨false, 9, 0⟩)]⟩,
    Assignment.toRow ⟨[(1, .number ⟨false, 0, 0⟩), (2, .number ⟨true, 0, 0⟩),
      (3, .number ⟨false, 5, 0⟩)]⟩,
    Assignment.toRow ⟨[(1, .number ⟨false, 1, 0⟩), (3, .number ⟨false, 100, -2⟩)]⟩,
    Assignment.toRow ⟨[(1, .number ⟨false, 1, 0⟩), (2, .bool true)]⟩]

/-- Every row keeps the form in which its own number is written: `1.10` where the equal
`1.1` stands in another slot, `-0` and not `0`, and `1.00` under a nested choice. -/
theorem batch_keeps_written_forms :
    ∃ batch, (BatchPlan.build false true (.ofTree handedOn)).outcome = .ok batch ∧
      batch.values writtenRows =
        .ok [.value (.number ⟨false, 110, -2⟩), .value (.number ⟨true, 0, 0⟩),
          .value (.number ⟨false, 100, -2⟩), .value .null] := by
  have held : ∀ row ∈ writtenRows, ∀ slots, HoldsValues slots row := by
    intro row member slots
    simp only [writtenRows, List.mem_cons, List.not_mem_nil, or_false] at member
    rcases member with rfl | rfl | rfl | rfl <;> exact holdsValues_toRow _
  have proper : handedOn.proper? = .ok (.choose
      (.connect .or (.compare .eq (.slot 1) (.slot 2)) (.compare .lt (.slot 3) (.slot 1)))
      (.slot 2) (.choose (.compare .ge (.slot 1) (.slot 3)) (.slot 3) .null)) := rfl
  obtain ⟨batch, plan, built, planned, values⟩ :=
    batch_agrees_with_plan false true proper
      (Tree.everySlot_iff.mp (by simp [Tree.EverySlot, greatestIndex]))
      (fun row member => held row member _)
  cases planned
  exact ⟨batch, built, values⟩

end SlotLogic
