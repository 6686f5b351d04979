import SlotLogic.Proofs.Evaluation.Origin

/-!
Contract: a formula of connectives is a boolean exactly if all of its terms are, and then it is
the classical one; otherwise it is null.

Owns: the terms of a formula, its classical value under truth values for the terms, formulas
that are rearranged, and what these say about evaluation.

A tree that connects other trees is a formula, and its terms are the trees below all of its
connectives. No operand is passed over for the value of the other one. So the value depends on
the set of the terms and on the classical value only, and every rearrangement that keeps both
keeps the value.

Does not own: the values of terms.
-/

set_option autoImplicit false

namespace SlotLogic

/-! ## Connectives -/

namespace Connective

end Connective

/-! ## Formulas -/

namespace Tree

variable {Foreign : Type}

end Tree

/-! ## Values -/

/-- A datum that is a truth value. -/
def Datum.IsTruth (datum : Datum) : Prop :=
  ∃ flag, datum = .value (.bool flag)

/-- Whether a datum is the truth value `true`. -/
def Datum.isTrue : Datum → Bool
  | .value (.bool flag) => flag
  | _ => false

theorem Datum.IsTruth.eq {datum : Datum} (truth : datum.IsTruth) :
    datum = .value (.bool datum.isTrue) := by
  obtain ⟨flag, rfl⟩ := truth
  rfl

namespace Expr

variable {slots : Int → Datum} {expr : Expr}

end Expr

end SlotLogic
