import SlotLogic.Proofs.Batch.Agreement

/-!
Contract: a run is refused exactly for rows that hold something else than a value in a slot, and
for the first such place, row by row and slot by slot.

Owns: the places of rows that offend, the first of them, the fault of a check, and the runs that
are refused and those that are not.

Whether the slot matters for the result is not asked: a slot of a branch that is not taken is
checked as well. A run that passes the check cannot fail later.

Does not own: the values of a run.
-/

set_option autoImplicit false

namespace SlotLogic

variable {slots : List Int} {rows : List Row}

/-- A row holds in a slot a datum that is no value. -/
structure Offends (slots : List Int) (rows : List Row) (position : Nat) (slot : Int)
    (datum : Datum) : Prop where
  listed : slot ∈ slots
  held : ∃ row, rows[position]? = some row ∧ row.slot? slot = some datum
  noValue : ∀ value, datum ≠ .value value

/-- The offence in the first row that has one, and there in the lowest slot. -/
structure FirstOffends (slots : List Int) (rows : List Row) (position : Nat) (slot : Int)
    (datum : Datum) : Prop where
  offends : Offends slots rows position slot datum
  first : ∀ position' slot' datum', Offends slots rows position' slot' datum' →
    position < position' ∨ position = position' ∧ slot ≤ slot'

/-! ## The check of one row -/

theorem faultAt_eq_some_iff {position : Nat} {row : Row} {slot : Int} {fault : BatchFault} :
    BatchPlan.faultAt position row slot = some fault ↔
      ∃ datum, row.slot? slot = some datum ∧ (∀ value, datum ≠ .value value) ∧
        fault = .notValue position slot datum.typeName := by
  unfold BatchPlan.faultAt Row.read
  cases row.slot? slot with
  | none => simp [Datum.value?]
  | some datum =>
      cases datum with
      | value held => simp [Datum.value?]
      | none | bool | integer | binary | text | decimal | list | record =>
          simp [Datum.value?, eq_comm]

/-- An offence is a fault at its place. -/
theorem Offends.faultAt {position : Nat} {slot : Int} {datum : Datum} {row : Row}
    (offends : Offends slots rows position slot datum) (placed : rows[position]? = some row)
    (start : Nat) :
    BatchPlan.faultAt start row slot = some (.notValue start slot datum.typeName) := by
  obtain ⟨row', placed', entry⟩ := offends.held
  cases Option.some.inj (placed.symm.trans placed')
  exact faultAt_eq_some_iff.mpr ⟨datum, entry, offends.noValue, rfl⟩

theorem offends_cons_succ {row : Row} {position : Nat} {slot : Int} {datum : Datum} :
    Offends slots (row :: rows) (position + 1) slot datum ↔
      Offends slots rows position slot datum :=
  ⟨fun offends => ⟨offends.listed, offends.held, offends.noValue⟩,
    fun offends => ⟨offends.listed, offends.held, offends.noValue⟩⟩

/-- The fault of one row is about the lowest slot that offends in it. -/
theorem firstOffends_of_row (ascend : slots.Pairwise (· < ·)) {start : Nat} {row : Row}
    {fault : BatchFault} (found : slots.findSome? (BatchPlan.faultAt start row) = some fault) :
    ∃ slot datum, FirstOffends slots (row :: rows) 0 slot datum ∧
      fault = .notValue start slot datum.typeName := by
  obtain ⟨lower, slot, higher, split, here, before⟩ := List.findSome?_eq_some_iff.mp found
  obtain ⟨datum, entry, noValue, rfl⟩ := faultAt_eq_some_iff.mp here
  have listed : slot ∈ slots := by simp [split]
  refine ⟨slot, datum, ⟨⟨listed, ⟨row, rfl, entry⟩, noValue⟩, ?_⟩, rfl⟩
  intro position' slot' datum' offends'
  cases position' with
  | succ position' => exact .inl (Nat.succ_pos position')
  | zero =>
      refine .inr ⟨rfl, ?_⟩
      have listed' := offends'.listed
      rw [split, List.mem_append, List.mem_cons] at listed'
      rcases listed' with lowerMember | rfl | higherMember
      · have fault := offends'.faultAt rfl start
        rw [before slot' lowerMember] at fault
        cases fault
      · exact Int.le_refl _
      · rw [split] at ascend
        exact ((List.pairwise_cons.mp (List.pairwise_append.mp ascend).2.1).1 slot'
          higherMember).le

/-! ## The check of all rows -/

theorem not_offends_of_firstFault {start position : Nat} {slot : Int} {datum : Datum}
    (passed : BatchPlan.firstFault slots start rows = none) :
    ¬Offends slots rows position slot datum := by
  induction rows generalizing start position with
  | nil =>
      intro offends
      obtain ⟨row, placed, -⟩ := offends.held
      cases placed
  | cons row rest inductionHypothesis =>
      rw [BatchPlan.firstFault, Option.or_eq_none_iff] at passed
      intro offends
      cases position with
      | zero =>
          have fault := offends.faultAt rfl start
          rw [List.findSome?_eq_none_iff.mp passed.1 slot offends.listed] at fault
          cases fault
      | succ position => exact inductionHypothesis passed.2 (offends_cons_succ.mp offends)

/-- A fault is about the first offence. -/
theorem firstOffends_of_firstFault (ascend : slots.Pairwise (· < ·)) {start : Nat}
    {fault : BatchFault} (refused : BatchPlan.firstFault slots start rows = some fault) :
    ∃ position slot datum, FirstOffends slots rows position slot datum ∧
      fault = .notValue (start + position) slot datum.typeName := by
  induction rows generalizing start with
  | nil => cases refused
  | cons row rest inductionHypothesis =>
      rw [BatchPlan.firstFault] at refused
      cases found : slots.findSome? (BatchPlan.faultAt start row) with
      | some first =>
          rw [found, Option.some_or] at refused
          cases refused
          obtain ⟨slot, datum, firstOffends, same⟩ := firstOffends_of_row ascend found
          exact ⟨0, slot, datum, firstOffends, same⟩
      | none =>
          rw [found, Option.none_or] at refused
          obtain ⟨position, slot, datum, firstOffends, rfl⟩ := inductionHypothesis refused
          refine ⟨position + 1, slot, datum,
            ⟨offends_cons_succ.mpr firstOffends.offends, ?_⟩, by rw [Nat.add_right_comm]; rfl⟩
          intro position' slot' datum' offends'
          cases position' with
          | zero =>
              have fault := offends'.faultAt rfl start
              rw [List.findSome?_eq_none_iff.mp found slot' offends'.listed] at fault
              cases fault
          | succ position' =>
              have later :=
                firstOffends.first position' slot' datum' (offends_cons_succ.mp offends')
              omega

/-- There is one first offence. -/
theorem FirstOffends.unique {position position' : Nat} {slot slot' : Int} {datum datum' : Datum}
    (one : FirstOffends slots rows position slot datum)
    (other : FirstOffends slots rows position' slot' datum') :
    position = position' ∧ slot = slot' ∧ datum = datum' := by
  have forth := one.first position' slot' datum' other.offends
  have back := other.first position slot datum one.offends
  obtain rfl : position = position' := by omega
  obtain rfl : slot = slot' := by omega
  obtain ⟨row, placed, entry⟩ := one.offends.held
  obtain ⟨row', placed', entry'⟩ := other.offends.held
  cases Option.some.inj (placed.symm.trans placed')
  exact ⟨rfl, rfl, Option.some.inj (entry.symm.trans entry')⟩

/-- The check finds a fault exactly if there is a first offence, and the fault is about it. -/
theorem firstFault_eq_some_iff (ascend : slots.Pairwise (· < ·)) {fault : BatchFault} :
    BatchPlan.firstFault slots 0 rows = some fault ↔
      ∃ position slot datum, FirstOffends slots rows position slot datum ∧
        fault = .notValue position slot datum.typeName := by
  constructor
  · intro refused
    obtain ⟨position, slot, datum, firstOffends, same⟩ := firstOffends_of_firstFault ascend refused
    exact ⟨position, slot, datum, firstOffends, by rw [same, Nat.zero_add]⟩
  · rintro ⟨position, slot, datum, firstOffends, rfl⟩
    cases refused : BatchPlan.firstFault slots 0 rows with
    | none => exact absurd firstOffends.offends (not_offends_of_firstFault refused)
    | some fault =>
        obtain ⟨position', slot', datum', firstOffends', rfl⟩ :=
          firstOffends_of_firstFault ascend refused
        obtain ⟨rfl, rfl, rfl⟩ := firstOffends.unique firstOffends'
        rw [Nat.zero_add]

/-- Rows that pass the check hold values. -/
theorem holdsValues_of_firstFault {start : Nat}
    (passed : BatchPlan.firstFault slots start rows = none) :
    ∀ row ∈ rows, HoldsValues slots row := by
  intro row inRows index listed datum entry
  obtain ⟨position, placed⟩ := List.mem_iff_getElem?.mp inRows
  by_contra noValue
  exact not_offends_of_firstFault passed ⟨listed, ⟨row, placed, entry⟩, not_exists.mp noValue⟩

/-! ## Runs -/

theorem run_error_iff (plan : BatchPlan) {fault : BatchFault} :
    plan.run rows = .error fault ↔ BatchPlan.firstFault plan.slots 0 rows = some fault := by
  unfold BatchPlan.run
  cases BatchPlan.firstFault plan.slots 0 rows <;> simp [lanes_eq, Except.map]

/-- A run that passes the check can be decoded. -/
theorem decode_of_run (plan : BatchPlan) (nonnegative : ∀ index ∈ plan.slots, 0 ≤ index)
    {columns : Columns} (ran : plan.run rows = .ok columns) :
    columns.decode rows = .ok (rows.map fun row => plan.expr.eval row.read) := by
  have passed : BatchPlan.firstFault plan.slots 0 rows = none := by
    unfold BatchPlan.run at ran
    cases check : BatchPlan.firstFault plan.slots 0 rows with
    | none => rfl
    | some fault =>
        rw [check] at ran
        cases ran
  have values := batch_values plan nonnegative (holdsValues_of_firstFault passed)
  rw [BatchPlan.values, ran] at values
  exact values

/-- A run is refused exactly if some row holds in a slot of the expression something that is no
value, and then for the first such place, row by row and slot by slot, with the type of what is
there. Every other run gives columns that can be decoded against its rows. -/
theorem batch_refuses_first_offence {root : Tree Datum} {expr : Expr} (lenient compiled : Bool)
    (proper : root.proper? = .ok expr)
    (inRange : ∀ index ∈ expr.slots, 0 ≤ index ∧ index ≤ greatestIndex) :
    ∃ batch, (BatchPlan.build lenient compiled (.ofTree root)).outcome = .ok batch ∧
      batch.slots = expr.slots ∧
      ∀ rows : List Row,
        ((∃ fault, batch.run rows = .error fault) ↔
          ∃ position slot datum, Offends expr.slots rows position slot datum) ∧
        (∀ fault, batch.run rows = .error fault ↔
          ∃ position slot datum, FirstOffends expr.slots rows position slot datum ∧
            fault = .notValue position slot datum.typeName ∧
            fault.message = "row " ++ toString position ++ " slot " ++ integerText slot
              ++ " has unsupported runtime type " ++ datum.typeName) ∧
        ((∀ position slot datum, ¬Offends expr.slots rows position slot datum) →
          ∃ columns data, batch.run rows = .ok columns ∧ columns.decode rows = .ok data) := by
  obtain ⟨batch, built, rfl⟩ := batch_build_of_proper lenient compiled proper
  rw [← batch.slots_eq] at inRange ⊢
  have faults (rows : List Row) (fault : BatchFault) : batch.run rows = .error fault ↔
      ∃ position slot datum, FirstOffends batch.slots rows position slot datum ∧
        fault = .notValue position slot datum.typeName :=
    (run_error_iff batch).trans (firstFault_eq_some_iff batch.root.slots_ascend)
  refine ⟨batch, built, rfl, fun rows => ⟨?_, ?_, ?_⟩⟩
  · constructor
    · rintro ⟨fault, refused⟩
      obtain ⟨position, slot, datum, firstOffends, -⟩ := (faults rows fault).mp refused
      exact ⟨position, slot, datum, firstOffends.offends⟩
    · rintro ⟨position, slot, datum, offends⟩
      cases check : BatchPlan.firstFault batch.slots 0 rows with
      | none => exact absurd offends (not_offends_of_firstFault check)
      | some fault => exact ⟨fault, (run_error_iff batch).mpr check⟩
  · intro fault
    rw [faults rows fault]
    constructor
    · rintro ⟨position, slot, datum, firstOffends, rfl⟩
      exact ⟨position, slot, datum, firstOffends, rfl, rfl⟩
    · rintro ⟨position, slot, datum, firstOffends, same, -⟩
      exact ⟨position, slot, datum, firstOffends, same⟩
  · intro clean
    cases ran : batch.run rows with
    | ok columns =>
        have nonnegative : ∀ index ∈ batch.slots, 0 ≤ index :=
          fun index member => (inRange index member).1
        exact ⟨columns, _, rfl, decode_of_run batch nonnegative ran⟩
    | error fault =>
        obtain ⟨position, slot, datum, firstOffends, -⟩ := (faults rows fault).mp ran
        exact absurd firstOffends.offends (clean position slot datum)

/-- What slot 2 or slot 3 holds, by what slot 1 holds. -/
def secondOrThird {Foreign : Type} : Tree Foreign :=
  .choose (.slot 1) (.slot 2) (.slot 3)

/-- Rows with data that are no values: in no slot of `secondOrThird`, in the one that is not
taken, and in the one that is. -/
def strayRows : List Row :=
  [[(.integer 9, .list []), (.integer 1, .value (.bool true))],
    [(.integer 3, .list []), (.integer 1, .value (.bool true)), (.integer 2, .value .null)],
    [(.integer 1, .value (.bool true)), (.integer 2, .text "x")]]

/-- The list in the branch that is not taken is reported, since its row is the first. -/
theorem stray_list_is_reported :
    ∃ batch, (BatchPlan.build false true (.ofTree secondOrThird)).outcome = .ok batch ∧
      FirstOffends (secondOrThird : Expr).slots strayRows 1 3 (.list []) ∧
      batch.run strayRows = .error (.notValue 1 3 "list") ∧
      BatchFault.message (.notValue 1 3 "list") =
        "row 1 slot 3 has unsupported runtime type list" := by
  have proper : (secondOrThird : Tree Datum).proper? = .ok secondOrThird := rfl
  have inRange : ∀ index ∈ (secondOrThird : Expr).slots, 0 ≤ index ∧ index ≤ greatestIndex :=
    Tree.everySlot_iff.mp (by simp [secondOrThird, Tree.EverySlot, greatestIndex])
  obtain ⟨batch, built, -, runs⟩ := batch_refuses_first_offence false true proper inRange
  obtain ⟨-, faults, -⟩ := runs strayRows
  have refused : batch.run strayRows = .error (.notValue 1 3 "list") := by
    cases built
    decide +kernel
  obtain ⟨position, slot, datum, firstOffends, same, message⟩ := (faults _).mp refused
  obtain ⟨rfl, rfl, named⟩ := BatchFault.notValue.inj same
  obtain ⟨row, placed, entry⟩ := firstOffends.offends.held
  cases placed
  obtain rfl : .list [] = datum := Option.some.inj entry
  exact ⟨batch, built, firstOffends, refused, message⟩

end SlotLogic
