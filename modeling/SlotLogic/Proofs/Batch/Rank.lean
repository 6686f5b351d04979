import SlotLogic.Batch.Lane
import SlotLogic.Proofs.Decimal.Order

/-!
Contract: ranks compare as the numbers that they stand for.

Owns: the order of a ranking, the numbers that it holds, the look-up of a rank, and
the comparison of the ranks of two numbers of the batch.

A number is replaced by its rank among the distinct numbers. So two decimals of one
number have one rank, and of two different numbers the lower one is counted for the
rank of the other.

Does not own: lanes.
-/

set_option autoImplicit false

namespace SlotLogic

open Decimal

/-- The decimals of a list ascend by the numbers that they stand for. -/
def Ascending (ranked : List Decimal) : Prop :=
  ranked.Pairwise fun lower higher => lower.toRat < higher.toRat

/-- The number of a decimal is among the numbers of a list. -/
def Ranked (ranked : List Decimal) (number : Decimal) : Prop :=
  ∃ member ∈ ranked, member.toRat = number.toRat

variable {ranked : List Decimal} {number left right : Decimal}

/-! ## The ranking -/

theorem mem_of_insertByValue {other : Decimal} (member : other ∈ insertByValue number ranked) :
    other = number ∨ other ∈ ranked := by
  induction ranked with
  | nil => exact .inl (List.mem_singleton.mp member)
  | cons head tail inductionHypothesis =>
      unfold insertByValue at member
      split at member
      · exact List.mem_cons.mp member
      · exact .inr member
      · rcases List.mem_cons.mp member with rfl | later
        · exact .inr (List.mem_cons_self ..)
        · rcases inductionHypothesis later with rfl | inside
          · exact .inl rfl
          · exact .inr (List.mem_cons_of_mem _ inside)

theorem insertByValue_ascending (ascending : Ascending ranked) :
    Ascending (insertByValue number ranked) := by
  induction ranked with
  | nil => exact List.pairwise_singleton ..
  | cons head tail inductionHypothesis =>
      obtain ⟨headBelow, tailAscending⟩ := List.pairwise_cons.mp ascending
      unfold insertByValue
      rw [compareValue_eq]
      cases order : compare number.toRat head.toRat with
      | lt =>
          have below := compare_lt_iff_lt.mp order
          apply List.pairwise_cons.mpr ⟨?_, ascending⟩
          intro other member
          rcases List.mem_cons.mp member with rfl | later
          · exact below
          · exact below.trans (headBelow other later)
      | eq => exact ascending
      | gt =>
          have above := compare_gt_iff_gt.mp order
          apply List.pairwise_cons.mpr ⟨?_, inductionHypothesis tailAscending⟩
          intro other member
          rcases mem_of_insertByValue member with rfl | inside
          · exact above
          · exact headBelow other inside

theorem ranked_insertByValue_self : Ranked (insertByValue number ranked) number := by
  induction ranked with
  | nil => exact ⟨number, List.mem_singleton_self number, rfl⟩
  | cons head tail inductionHypothesis =>
      unfold insertByValue
      rw [compareValue_eq]
      cases order : compare number.toRat head.toRat with
      | lt => exact ⟨number, List.mem_cons_self .., rfl⟩
      | eq => exact ⟨head, List.mem_cons_self .., (compare_eq_iff_eq.mp order).symm⟩
      | gt =>
          obtain ⟨member, inside, same⟩ := inductionHypothesis
          exact ⟨member, List.mem_cons_of_mem _ inside, same⟩

theorem mem_insertByValue_of_mem {other : Decimal} (member : other ∈ ranked) :
    other ∈ insertByValue number ranked := by
  induction ranked with
  | nil => cases member
  | cons head tail inductionHypothesis =>
      unfold insertByValue
      split
      · exact List.mem_cons_of_mem _ member
      · exact member
      · rcases List.mem_cons.mp member with rfl | later
        · exact List.mem_cons_self ..
        · exact List.mem_cons_of_mem _ (inductionHypothesis later)

theorem ranking_ascending (numbers : List Decimal) : Ascending (ranking numbers) := by
  induction numbers with
  | nil => exact List.Pairwise.nil
  | cons head tail inductionHypothesis => exact insertByValue_ascending inductionHypothesis

/-- Every number of a list has a rank of its own. -/
theorem ranked_of_mem {numbers : List Decimal} (member : number ∈ numbers) :
    Ranked (ranking numbers) number := by
  induction numbers with
  | nil => cases member
  | cons head tail inductionHypothesis =>
      rcases List.mem_cons.mp member with rfl | later
      · exact ranked_insertByValue_self
      · obtain ⟨other, inside, same⟩ := inductionHypothesis later
        exact ⟨other, mem_insertByValue_of_mem inside, same⟩

/-! ## Ranks -/

/-- The rank of a number: how many of the ranked numbers are less. -/
def rankOf (ranked : List Decimal) (number : Decimal) : Nat :=
  (ranked.takeWhile fun other => other.less number).length

theorem rankOf_cons (head : Decimal) (tail : List Decimal) (number : Decimal) :
    rankOf (head :: tail) number =
      if head.toRat < number.toRat then rankOf tail number + 1 else 0 := by
  unfold rankOf
  by_cases below : head.toRat < number.toRat
  · have less := less_iff.mpr below
    simp [less, below]
  · have less : head.less number = false := by
      rw [Bool.eq_false_iff]
      exact fun less => below (less_iff.mp less)
    simp [less, below]

/-- A greater number has no lower rank. -/
theorem rankOf_le (ordered : left.toRat ≤ right.toRat) :
    rankOf ranked left ≤ rankOf ranked right := by
  induction ranked with
  | nil => exact Nat.le_refl _
  | cons head tail inductionHypothesis =>
      rw [rankOf_cons, rankOf_cons]
      by_cases below : head.toRat < left.toRat
      · rw [if_pos below, if_pos (below.trans_le ordered)]
        omega
      · rw [if_neg below]
        exact Nat.zero_le _

/-- Where the lower of two numbers is ranked, the other has a higher rank. -/
theorem rankOf_lt (ascending : Ascending ranked) (present : Ranked ranked left)
    (lower : left.toRat < right.toRat) : rankOf ranked left < rankOf ranked right := by
  induction ranked with
  | nil =>
      obtain ⟨member, inside, -⟩ := present
      cases inside
  | cons head tail inductionHypothesis =>
      obtain ⟨headBelow, tailAscending⟩ := List.pairwise_cons.mp ascending
      obtain ⟨member, inside, same⟩ := present
      rw [rankOf_cons, rankOf_cons]
      by_cases below : head.toRat < left.toRat
      · have later : Ranked tail left := by
          rcases List.mem_cons.mp inside with rfl | inTail
          · exact absurd same below.ne
          · exact ⟨member, inTail, same⟩
        have rest := inductionHypothesis tailAscending later
        rw [if_pos below, if_pos (below.trans lower)]
        omega
      · -- The head itself is the number, since all others are higher.
        have least : head.toRat ≤ left.toRat := by
          rcases List.mem_cons.mp inside with rfl | inTail
          · exact same.le
          · exact same ▸ (headBelow member inTail).le
        rw [if_neg below, if_pos (least.trans_lt lower)]
        omega

/-- A number that is ranked is found, and at the place that counts the lower ones. -/
theorem rank?_of_ranked (ascending : Ascending ranked) (present : Ranked ranked number) :
    rank? ranked number = some (rankOf ranked number) := by
  induction ranked with
  | nil =>
      obtain ⟨member, inside, -⟩ := present
      cases inside
  | cons head tail inductionHypothesis =>
      obtain ⟨headBelow, tailAscending⟩ := List.pairwise_cons.mp ascending
      obtain ⟨member, inside, same⟩ := present
      rw [rank?, List.findIdx?_cons, rankOf_cons]
      rcases List.mem_cons.mp inside with rfl | inTail
      · rw [if_pos (same_iff.mpr same.symm), if_neg same.not_lt]
      · have below : head.toRat < number.toRat := same ▸ headBelow member inTail
        have other : ¬number.same head = true := fun equal => below.ne (same_iff.mp equal).symm
        have rest := inductionHypothesis tailAscending ⟨member, inTail, same⟩
        rw [rank?] at rest
        rw [if_neg other, if_pos below, rest, Option.map_some]

/-- The ranks of two numbers of the batch compare as the numbers. -/
theorem compare_rankOf (ascending : Ascending ranked) (leftRanked : Ranked ranked left)
    (rightRanked : Ranked ranked right) :
    compare (rankOf ranked left) (rankOf ranked right) = left.compareValue right := by
  rw [compareValue_eq]
  rcases lt_trichotomy left.toRat right.toRat with lower | same | higher
  · rw [compare_lt_iff_lt.mpr lower]
    exact compare_lt_iff_lt.mpr (rankOf_lt ascending leftRanked lower)
  · rw [compare_eq_iff_eq.mpr same]
    exact compare_eq_iff_eq.mpr (Nat.le_antisymm (rankOf_le same.le) (rankOf_le same.ge))
  · rw [compare_gt_iff_gt.mpr higher]
    exact compare_gt_iff_gt.mpr (rankOf_lt ascending rightRanked higher)

end SlotLogic
