import SlotLogic.Proofs.Batch.Agreement

/-!
Contract: the columns of a run report for each row what its value is and which slot it
was taken from.

Owns: what the entries of one row say, and that they say it for every row.

A result that is not null is marked by a slot exactly if the choices lead to the leaf of
this slot. Null is marked by none, even if the leaf that it was read from is a slot.

Does not own: decoding.
-/

set_option autoImplicit false

namespace SlotLogic

variable {expr : Expr} {row : Row} {value : Value}

/-- What the entries of a row say about its value, and about the leaf that the choices
of the expression lead to on this row. -/
structure Reports (expr : Expr) (row : Row) (value : Value) (sort : Int) (flag : Bool)
    (source : Int) : Prop where
  sort : sort = value.sort.code
  flag : flag = true ↔ value = .bool true
  marked : ∀ index, index ≠ Lane.noSource →
    (source = index ↔ value ≠ .null ∧ expr.origin? row.read = some index)
  unmarked : source = Lane.noSource ↔ value = .null ∨ expr.origin? row.read = none
  held : value ≠ .null → ∀ index, expr.origin? row.read = some index →
    row.slot? index = some (.value value)
  numeric : value.sort = .number → source ∈ expr.slots

/-- A row that reads as a value other than null has an entry with this value. -/
theorem slot?_of_read {index : Int} (read : row.read index = .value value)
    (present : value ≠ .null) : row.slot? index = some (.value value) := by
  unfold Row.read at read
  cases entry : row.slot? index with
  | some datum =>
      rw [entry] at read
      exact congrArg some read
  | none =>
      rw [entry] at read
      exact absurd (Datum.value.inj read).symm present

/-- The lane of a result reports it. -/
theorem reports_ofResult (ranked : List Decimal) (nonnegative : ∀ index ∈ expr.slots, 0 ≤ index)
    (result : expr.eval row.read = .value value) :
    Reports expr row value (Lane.ofResult ranked value (expr.origin? row.read)).sort.code
      (Lane.ofResult ranked value (expr.origin? row.read)).flag
      (Lane.ofResult ranked value (expr.origin? row.read)).source where
  sort := by
    cases value <;> rfl
  flag := by
    cases value with
    | null | number => simp [Lane.ofResult, Lane.holding, Lane.null]
    | bool flag => simp [Lane.ofResult, Lane.holding]
  marked := by
    intro index other
    by_cases isNull : value = .null
    · simp [Lane.ofResult, isNull, other.symm]
    · cases origin : expr.origin? row.read with
      | none => simp [Lane.ofResult, isNull, other.symm]
      | some slot => simp [Lane.ofResult, isNull]
  unmarked := by
    by_cases isNull : value = .null
    · simp [Lane.ofResult, isNull]
    · cases origin : expr.origin? row.read with
      | none => simp [Lane.ofResult, isNull]
      | some slot =>
          have slotNonnegative : 0 ≤ slot :=
            Expr.holds_of_origin (Tree.everySlot_iff.mpr nonnegative) origin
          have marked : slot ≠ Lane.noSource := by
            unfold Lane.noSource
            omega
          simp [Lane.ofResult, isNull, marked]
  held := by
    intro present index origin
    rw [Expr.eval_of_origin origin] at result
    exact slot?_of_read result present
  numeric := by
    intro numeric
    cases value with
    | null | bool => cases numeric
    | number number =>
        obtain ⟨index, origin⟩ := Expr.origin_of_number result
        have member : index ∈ expr.slots :=
          Expr.holds_of_origin (Tree.everySlot_iff.mpr fun _ member => member) origin
        simpa [Lane.ofResult, origin] using member

/-- Columns hold the entries of a lane at its place. -/
theorem Columns.entries_ofLanes {lanes : List Lane} {position : Nat} {lane : Lane}
    (placed : lanes[position]? = some lane) :
    (ofLanes lanes).sorts[position]? = some lane.sort.code ∧
      (ofLanes lanes).flags[position]? = some lane.flag ∧
      (ofLanes lanes).sources[position]? = some lane.source := by
  simp [ofLanes, placed]

/-- A run of a tree without foreign leaves on rows of values has one entry in each column
for each row, and these entries report the value that the plain evaluation gives the
row. -/
theorem columns_report_rows {root : Tree Datum} {expr : Expr} {rows : List Row}
    (lenient compiled : Bool) (proper : root.proper? = .ok expr)
    (inRange : ∀ index ∈ expr.slots, 0 ≤ index ∧ index ≤ greatestIndex)
    (held : ∀ row ∈ rows, ∀ index ∈ expr.slots, ∀ datum, row.slot? index = some datum →
      ∃ value, datum = .value value) :
    ∃ batch plan columns,
      (BatchPlan.build lenient compiled (.ofTree root)).outcome = .ok batch ∧
      (Plan.build lenient (.ofTree root)).outcome = .ok plan ∧
      batch.slots = expr.slots ∧ batch.run rows = .ok columns ∧
      columns.sorts.length = rows.length ∧ columns.flags.length = rows.length ∧
      columns.sources.length = rows.length ∧
      ∀ (position : Nat) (row : Row), rows[position]? = some row →
        ∃ value sort flag source, (plan.run row).result = .value value ∧
          columns.sorts[position]? = some sort ∧ columns.flags[position]? = some flag ∧
          columns.sources[position]? = some source ∧
          Reports expr row value sort flag source := by
  obtain ⟨batch, built, rfl⟩ := batch_build_of_proper lenient compiled proper
  obtain ⟨plan, planned, same⟩ := plan_build_of_proper lenient proper
  rw [← batch.slots_eq] at held inRange
  refine ⟨batch, plan, _, built, planned, batch.slots_eq, run_of_holdsValues batch held,
    ?_, ?_, ?_, ?_⟩
  · simp [Columns.ofLanes]
  · simp [Columns.ofLanes]
  · simp [Columns.ofLanes]
  · intro position row entry
    obtain ⟨value, result, lane⟩ := lane_of_row batch (List.mem_of_getElem? entry) held
    have placed : (rows.map fun row =>
        batch.expr.lane (encodedLane batch.slots rows row))[position]? =
          some (Lane.ofResult (ranking (BatchPlan.numbers batch.slots rows)) value
            (batch.expr.origin? row.read)) := by
      rw [List.getElem?_map, entry, ← lane]
      rfl
    rw [batch.slots_eq] at inRange
    have reports := reports_ofResult (ranking (BatchPlan.numbers batch.slots rows))
      (fun index member => (inRange index member).1) result
    obtain ⟨sort, flag, source⟩ := Columns.entries_ofLanes placed
    refine ⟨value, _, _, _, ?_, sort, flag, source, reports⟩
    rw [plan.run_eq, same]
    exact result

/-- A choice between what slot 2 holds and a test of slot 2, by what slot 1 holds. -/
def heldOrTested : Tree Datum :=
  .choose (.slot 1) (.slot 2) (.compare .eq (.slot 2) .null)

/-- Rows on which the choice gives a number, a computed boolean, a null from a slot, a
null because its test is no boolean, and a boolean from a slot. -/
def mixedRows : List Row :=
  [Assignment.toRow ⟨[(1, .bool true), (2, .number ⟨false, 110, -2⟩)]⟩,
    Assignment.toRow ⟨[(1, .bool false)]⟩,
    Assignment.toRow ⟨[(1, .bool true), (2, .null)]⟩,
    Assignment.toRow ⟨[(1, .number ⟨false, 5, 0⟩), (2, .bool true)]⟩,
    Assignment.toRow ⟨[(1, .bool true), (2, .bool false)]⟩]

/-- Only the number and the boolean that come from slot 2 are marked by it. -/
theorem mixed_rows_reported :
    ∃ batch plan, (BatchPlan.build false true (.ofTree heldOrTested)).outcome = .ok batch ∧
      (Plan.build false (.ofTree heldOrTested)).outcome = .ok plan ∧
      batch.run mixedRows = .ok
        ⟨[2, 1, 0, 0, 1], [false, true, false, false, false], [2, -1, -1, -1, 2]⟩ ∧
      ∀ row, mixedRows[0]? = some row → (plan.run row).result = .value (.number ⟨false, 110, -2⟩) ∧
        Reports (.choose (.slot 1) (.slot 2) (.compare .eq (.slot 2) .null)) row
          (.number ⟨false, 110, -2⟩) 2 false 2 := by
  have held : ∀ row ∈ mixedRows, ∀ slots, HoldsValues slots row := by
    intro row member slots
    simp only [mixedRows, List.mem_cons, List.not_mem_nil, or_false] at member
    rcases member with rfl | rfl | rfl | rfl | rfl <;> exact holdsValues_toRow _
  have proper : heldOrTested.proper? =
      .ok (.choose (.slot 1) (.slot 2) (.compare .eq (.slot 2) .null)) := rfl
  obtain ⟨batch, plan, columns, built, planned, -, ran, -, -, -, entries⟩ :=
    columns_report_rows false true proper
      (Tree.everySlot_iff.mp (by simp [Tree.EverySlot, greatestIndex]))
      (fun row member => held row member _)
  have whole : batch.run mixedRows = .ok
      ⟨[2, 1, 0, 0, 1], [false, true, false, false, false], [2, -1, -1, -1, 2]⟩ := by
    cases built
    decide +kernel
  refine ⟨batch, plan, built, planned, whole, ?_⟩
  cases Except.ok.inj (ran.symm.trans whole)
  intro row first
  cases first
  obtain ⟨value, sort, flag, source, result, sortEntry, flagEntry, sourceEntry, reports⟩ :=
    entries 0 _ rfl
  have taken : (plan.run mixedRows[0]).result = .value (.number ⟨false, 110, -2⟩) := by
    cases planned
    rfl
  cases result.symm.trans taken
  cases sortEntry
  cases flagEntry
  cases sourceEntry
  exact ⟨taken, reports⟩

end SlotLogic
