import SlotLogic.Proofs.Batch.Agreement
import SlotLogic.Proofs.Evaluation.Counterpart

/-!
Contract: to relabel the numbers of a row by a map that keeps their order is to relabel the
result.

Owns: relabelled data and rows, maps that keep the order of numbers, evaluation on relabelled
rows, and two such maps: a shift of the point, and the ranks of a batch.

A map need not keep more than the order and the equality of the numbers that the row holds in the
slots of the expression. Equal numbers that are written in two forms may become different forms.

Does not own: lanes.
-/

set_option autoImplicit false

namespace SlotLogic

/-! ## Relabelled rows -/

def Value.relabelled (relabel : Decimal → Decimal) : Value → Value
  | .number decimal => .number (relabel decimal)
  | other => other

/-- A datum with another number, if it is a number. -/
def Datum.relabelled (relabel : Decimal → Decimal) : Datum → Datum
  | .value held => .value (held.relabelled relabel)
  | other => other

/-- A row with every number that it holds relabelled. -/
def Row.relabelled (relabel : Decimal → Decimal) (row : Row) : Row :=
  row.map fun entry => (entry.1, entry.2.relabelled relabel)

/-- A row holds a number in one of some slots. -/
def Row.HoldsNumber (slots : List Int) (row : Row) (number : Decimal) : Prop :=
  ∃ index ∈ slots, row.read index = .value (.number number)

/-- A map that keeps the order and the equality of some numbers. -/
structure KeepsOrder (relabel : Decimal → Decimal) (Held : Decimal → Prop) : Prop where
  less : ∀ left right, Held left → Held right →
    ((relabel left).less (relabel right) = true ↔ left.less right = true)
  same : ∀ left right, Held left → Held right →
    ((relabel left).same (relabel right) = true ↔ left.same right = true)

variable {relabel : Decimal → Decimal} {Held : Decimal → Prop}

/-- A map that keeps comparisons keeps order and equality. -/
theorem keepsOrder_of_compareValue
    (keeps : ∀ left right, Held left → Held right →
      (relabel left).compareValue (relabel right) = left.compareValue right) :
    KeepsOrder relabel Held where
  less left right leftHeld rightHeld := by
    rw [Decimal.less, Decimal.less, keeps left right leftHeld rightHeld]
  same left right leftHeld rightHeld := by
    rw [Decimal.same, Decimal.same, keeps left right leftHeld rightHeld]

theorem KeepsOrder.imp {Held' : Decimal → Prop} (keeps : KeepsOrder relabel Held)
    (fewer : ∀ number, Held' number → Held number) : KeepsOrder relabel Held' where
  less left right leftHeld rightHeld :=
    keeps.less left right (fewer left leftHeld) (fewer right rightHeld)
  same left right leftHeld rightHeld :=
    keeps.same left right (fewer left leftHeld) (fewer right rightHeld)

theorem KeepsOrder.compareValue (keeps : KeepsOrder relabel Held) {left right : Decimal}
    (leftHeld : Held left) (rightHeld : Held right) :
    (relabel left).compareValue (relabel right) = left.compareValue right := by
  have less := keeps.less left right leftHeld rightHeld
  have same := keeps.same left right leftHeld rightHeld
  unfold Decimal.less at less
  unfold Decimal.same at same
  -- An order is known from whether it is `lt` and whether it is `eq`.
  cases before : left.compareValue right <;>
    cases after : (relabel left).compareValue (relabel right) <;>
    simp [before, after] at less same ⊢

theorem Datum.relabelled_of_no_number {datum : Datum}
    (noNumber : ∀ number, datum ≠ .value (.number number)) :
    datum.relabelled relabel = datum := by
  cases datum with
  | value held =>
      cases held with
      | number decimal => exact absurd rfl (noNumber decimal)
      | null | bool => rfl
  | none | bool | integer | binary | text | decimal | list | record => rfl

theorem Row.slot?_relabelled (row : Row) (index : Int) :
    (row.relabelled relabel).slot? index = (row.slot? index).map (Datum.relabelled relabel) := by
  unfold Row.slot? Row.find? Row.relabelled
  rw [List.find?_map, Option.map_map, Option.map_map]
  rfl

theorem Row.read_relabelled (row : Row) (index : Int) :
    (row.relabelled relabel).read index = (row.read index).relabelled relabel := by
  rw [Row.read, Row.slot?_relabelled, Row.read]
  cases row.slot? index <;> rfl

/-! ## Results -/

/-- A number with its image, for some numbers of a map. -/
def PairedBy (relabel : Decimal → Decimal) (Held : Decimal → Prop) (first second : Decimal) :
    Prop :=
  Held first ∧ second = relabel first

theorem KeepsOrder.orderKept (keeps : KeepsOrder relabel Held) :
    OrderKept (PairedBy relabel Held) := by
  rintro left _ right _ ⟨leftHeld, rfl⟩ ⟨rightHeld, rfl⟩
  exact keeps.compareValue leftHeld rightHeld

/-- A datum and the relabelled one are counterparts. -/
theorem counterpart_relabelled {datum : Datum}
    (held : ∀ number, datum = .value (.number number) → Held number) :
    Counterpart (PairedBy relabel Held) datum (datum.relabelled relabel) := by
  by_cases isNumber : ∃ number, datum = .value (.number number)
  · obtain ⟨number, rfl⟩ := isNumber
    exact .number ⟨held number rfl, rfl⟩
  · have noNumber := not_exists.mp isNumber
    rw [Datum.relabelled_of_no_number noNumber]
    exact .same noNumber

theorem eq_relabelled_of_counterpart {first second : Datum}
    (counterpart : Counterpart (PairedBy relabel Held) first second) :
    second = first.relabelled relabel := by
  cases counterpart with
  | number paired =>
      rw [paired.2]
      rfl
  | same noNumber => exact (Datum.relabelled_of_no_number noNumber).symm

/-- The evaluation on a relabelled row is the relabelled evaluation. -/
theorem run_relabelled {expr : Expr} {row : Row}
    (keeps : KeepsOrder relabel (row.HoldsNumber expr.slots)) :
    expr.run (row.relabelled relabel).read =
      ⟨(expr.run row.read).result.relabelled relabel, (expr.run row.read).reads⟩ := by
  have counterparts : expr.EverySlot fun index =>
      Counterpart (PairedBy relabel (row.HoldsNumber expr.slots)) (row.read index)
        ((row.relabelled relabel).read index) := by
    apply Tree.everySlot_iff.mpr
    intro index member
    rw [Row.read_relabelled]
    exact counterpart_relabelled fun number read => ⟨index, member, read⟩
  obtain ⟨result, reads⟩ := Expr.run_counterpart keeps.orderKept counterparts
  rw [← eq_relabelled_of_counterpart result, ← reads]

/-! ## Two maps that keep the order -/

/-- A number with its point shifted to the right. Its digits stay. -/
def Decimal.shifted (places : Int) (number : Decimal) : Decimal :=
  { number with exponent := number.exponent + places }

theorem toRat_shifted (places : Int) (number : Decimal) :
    (number.shifted places).toRat = number.toRat * 10 ^ places := by
  have magnitude : (number.shifted places).magnitude = number.magnitude * 10 ^ places := by
    rw [Decimal.magnitude, Decimal.magnitude, mul_assoc, ← zpow_add₀ (by norm_num)]
    rfl
  have negative : (number.shifted places).negative = number.negative := rfl
  rw [Decimal.toRat, Decimal.toRat, magnitude, negative]
  split
  · exact (neg_mul ..).symm
  · rfl

theorem shifts_keep_order (places : Int) : KeepsOrder (Decimal.shifted places) fun _ => True := by
  apply keepsOrder_of_compareValue
  intro left right _ _
  rw [Decimal.compareValue_eq, Decimal.compareValue_eq, toRat_shifted, toRat_shifted,
    Decimal.compare_mul_right (by positivity)]

theorem toRat_ofInt_natCast (number : Nat) : (Decimal.ofInt number).toRat = number := by
  have natural : ¬(number : Int) < 0 := by omega
  simp [Decimal.ofInt, Decimal.toRat, Decimal.magnitude, natural]

/-- Numbers of a ranking are ordered as their ranks. -/
theorem ranks_keep_order {ranked : List Decimal} (ascending : Ascending ranked) :
    KeepsOrder (fun number => .ofInt (rankOf ranked number)) (Ranked ranked) := by
  apply keepsOrder_of_compareValue
  intro left right leftRanked rightRanked
  rw [← compare_rankOf ascending leftRanked rightRanked, Decimal.compareValue_eq,
    toRat_ofInt_natCast, toRat_ofInt_natCast, Decimal.compare_natCast]

/-- An expression may be evaluated on the ranks of a batch instead of its numbers. -/
theorem run_on_ranks (plan : BatchPlan) {rows : List Row} {row : Row} (inRows : row ∈ rows) :
    let rank : Decimal → Decimal := fun number =>
      .ofInt (rankOf (ranking (BatchPlan.numbers plan.slots rows)) number)
    plan.expr.run (row.relabelled rank).read =
      ⟨(plan.expr.run row.read).result.relabelled rank, (plan.expr.run row.read).reads⟩ := by
  apply run_relabelled
  apply (ranks_keep_order (ranking_ascending _)).imp
  rw [← plan.slots_eq]
  rintro number ⟨index, member, read⟩
  exact isRanked_of_read inRows member read

/-! ## Plans -/

/-- A plan sees the numbers of a row through their order only: where a map keeps the order and
the equality of the numbers in its slots, the relabelled row has the relabelled result, a number
in the form that the map gives it, and the same slots are asked for. -/
theorem result_follows_relabelling {root : Tree Datum} {expr : Expr} (lenient : Bool)
    (proper : root.proper? = .ok expr) {row : Row} {relabel : Decimal → Decimal}
    (keeps : KeepsOrder relabel (row.HoldsNumber expr.slots)) :
    ∃ plan, (Plan.build lenient (.ofTree root)).outcome = .ok plan ∧
      (plan.run (row.relabelled relabel)).result = (plan.run row).result.relabelled relabel ∧
      (plan.run (row.relabelled relabel)).reads = (plan.run row).reads := by
  obtain ⟨plan, planned, rfl⟩ := plan_build_of_proper lenient proper
  refine ⟨plan, planned, ?_, ?_⟩
  · rw [plan.run_eq, run_relabelled keeps, plan.run_eq]
  · rw [plan.run_eq, run_relabelled keeps, plan.run_eq]

/-- What slot 1 holds, if slot 2 holds the same number and slot 3 a lower one. -/
def confirmedInTwo {Foreign : Type} : Tree Foreign :=
  .choose (.connect .and (.compare .eq (.slot 1) (.slot 2)) (.compare .lt (.slot 3) (.slot 1)))
    (.slot 1) .null

/-- One number in two forms, and a lower one. -/
def confirmingRow : Row :=
  Assignment.toRow ⟨[(1, .number ⟨false, 110, -2⟩), (2, .number ⟨false, 11, -1⟩),
    (3, .number ⟨true, 5, 3⟩)]⟩

/-- With all points shifted by two places the result is `110`, and not the equal `1.1E+2` of the
other slot. -/
theorem confirmed_number_is_shifted :
    ∃ plan, (Plan.build false (.ofTree confirmedInTwo)).outcome = .ok plan ∧
      (plan.run confirmingRow).result = .value (.number ⟨false, 110, -2⟩) ∧
      (plan.run (confirmingRow.relabelled (Decimal.shifted 2))).result =
        .value (.number ⟨false, 110, 0⟩) := by
  have proper : (confirmedInTwo : Tree Datum).proper? = .ok confirmedInTwo := rfl
  have keeps : KeepsOrder (Decimal.shifted 2)
      (confirmingRow.HoldsNumber (confirmedInTwo : Expr).slots) :=
    (shifts_keep_order 2).imp fun _ _ => trivial
  obtain ⟨plan, built, result, -⟩ := result_follows_relabelling false proper keeps
  have before : (plan.run confirmingRow).result = .value (.number ⟨false, 110, -2⟩) := by
    cases built
    rfl
  refine ⟨plan, built, before, ?_⟩
  rw [result, before]
  rfl

end SlotLogic
