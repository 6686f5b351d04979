import SlotLogic.Proofs.Evaluation.Origin

/-!
Contract: two evaluations whose slots hold counterparts give counterparts and ask for the same
slots.

Owns: the counterparts of data under a pairing of numbers, pairings that keep the order, the
operators on counterparts, and the evaluation of an expression on them.

Numbers enter an evaluation through their comparisons only, and leave it as they came. So if
paired numbers compare as their partners do, both evaluations take the same branches, and what
they hand on is paired again.

Does not own: which pairings there are.
-/

set_option autoImplicit false

namespace SlotLogic

variable {Paired : Decimal → Decimal → Prop}

/-- Two data of which one may stand for the other: paired numbers, or one datum that is no
number. -/
inductive Counterpart (Paired : Decimal → Decimal → Prop) : Datum → Datum → Prop where
  | number {first second : Decimal} (paired : Paired first second) :
      Counterpart Paired (.value (.number first)) (.value (.number second))
  | same {datum : Datum} (noNumber : ∀ number, datum ≠ .value (.number number)) :
      Counterpart Paired datum datum

/-- Paired numbers compare as their partners do. -/
def OrderKept (Paired : Decimal → Decimal → Prop) : Prop :=
  ∀ {left left' right right' : Decimal}, Paired left left' → Paired right right' →
    left'.compareValue right' = left.compareValue right

/-! ## Operators -/

/-- An operator gives the same on counterparts if it does on paired numbers, and if beside a datum
that is no number it does not matter which number it is given. -/
theorem Counterpart.operate_eq {Result : Type} {operate : Datum → Datum → Result}
    (numbers : ∀ {left left' right right'}, Paired left left' → Paired right right' →
      operate (.value (.number left')) (.value (.number right')) =
        operate (.value (.number left)) (.value (.number right)))
    (beside : ∀ {datum}, (∀ number, datum ≠ .value (.number number)) → ∀ number number',
      operate (.value (.number number')) datum = operate (.value (.number number)) datum ∧
        operate datum (.value (.number number')) = operate datum (.value (.number number)))
    {left left' right right' : Datum} (first : Counterpart Paired left left')
    (second : Counterpart Paired right right') : operate left' right' = operate left right := by
  cases first with
  | number leftPaired =>
      cases second with
      | number rightPaired => exact numbers leftPaired rightPaired
      | same noNumber => exact (beside noNumber _ _).1
  | same noNumber =>
      cases second with
      | number => exact (beside noNumber _ _).2
      | same => rfl

theorem connective_counterpart (operator : Connective) {left left' right right' : Datum}
    (first : Counterpart Paired left left') (second : Counterpart Paired right right') :
    operator.apply left' right' = operator.apply left right := by
  refine Counterpart.operate_eq (fun _ _ => rfl) ?_ first second
  intro datum noNumber number number'
  cases datum with
  | value held => cases held <;> exact ⟨rfl, rfl⟩
  | none | bool | integer | binary | text | decimal | list | record => exact ⟨rfl, rfl⟩

theorem comparison_counterpart (kept : OrderKept Paired) (operator : Comparison)
    {left left' right right' : Datum} (first : Counterpart Paired left left')
    (second : Counterpart Paired right right') :
    operator.apply left' right' = operator.apply left right := by
  refine Counterpart.operate_eq ?_ ?_ first second
  · intro left left' right right' leftPaired rightPaired
    simp only [Comparison.apply, equality?, order?, Decimal.same, kept leftPaired rightPaired]
  · intro datum noNumber number number'
    cases datum with
    | value held =>
        cases held with
        | number held => exact absurd rfl (noNumber held)
        | null | bool => exact ⟨rfl, rfl⟩
    | none | bool | integer | binary | text | decimal | list | record => exact ⟨rfl, rfl⟩

/-! ## Expressions -/

namespace Expr

variable {slots slots' : Int → Datum}

/-- Where the slots of an expression hold counterparts, the results are counterparts, and the
same slots are asked for in the same order. -/
theorem run_counterpart (kept : OrderKept Paired) {expr : Expr}
    (held : expr.EverySlot fun index => Counterpart Paired (slots index) (slots' index)) :
    Counterpart Paired (run slots expr).result (run slots' expr).result ∧
      (run slots' expr).reads = (run slots expr).reads := by
  induction expr with
  | null => exact ⟨.same (by simp [run]), rfl⟩
  | slot index => exact ⟨held, rfl⟩
  | connect operator left right leftHypothesis rightHypothesis =>
      obtain ⟨first, leftReads⟩ := leftHypothesis held.1
      obtain ⟨second, rightReads⟩ := rightHypothesis held.2
      simp only [run, leftReads, rightReads, connective_counterpart operator first second]
      refine ⟨.same fun number same => ?_, trivial⟩
      exact connective_not_number operator _ _ number (Datum.value.inj same)
  | compare operator left right leftHypothesis rightHypothesis =>
      obtain ⟨first, leftReads⟩ := leftHypothesis held.1
      obtain ⟨second, rightReads⟩ := rightHypothesis held.2
      simp only [run, leftReads, rightReads, comparison_counterpart kept operator first second]
      refine ⟨.same fun number same => ?_, trivial⟩
      exact comparison_not_number operator _ _ number (Datum.value.inj same)
  | choose test consequent alternative testHypothesis thenHypothesis elseHypothesis =>
      obtain ⟨testHeld, thenHeld, elseHeld⟩ := held
      obtain ⟨tested, testReads⟩ := testHypothesis testHeld
      obtain ⟨consequence, thenReads⟩ := thenHypothesis thenHeld
      obtain ⟨otherwise, elseReads⟩ := elseHypothesis elseHeld
      simp only [run, testReads]
      -- Either both tests are numbers, and no branch is taken, or they are one datum.
      generalize (run slots test).result = decided at tested
      generalize (run slots' test).result = decided' at tested
      cases tested with
      | number => exact ⟨.same (by simp), rfl⟩
      | same =>
          split
          · exact ⟨consequence, by rw [thenReads]⟩
          · exact ⟨otherwise, by rw [elseReads]⟩
          · exact ⟨.same (by simp), rfl⟩
  | foreign leaf => exact leaf.elim

end Expr

end SlotLogic
