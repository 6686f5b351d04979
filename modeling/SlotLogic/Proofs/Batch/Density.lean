import SlotLogic.Proofs.Batch.Offender
import SlotLogic.Proofs.Evaluation.Relabelling
import Mathlib.Data.Set.Card

/-!
Contract: the ranks of a batch are the first natural numbers, one for each number that is held,
and they compare as the numbers do.

Owns: the numbers that rows hold in slots, and the number and the order of their ranks.

A number is what a decimal stands for, `coefficient * 10 ^ exponent` with its sign, as a rational.
So several decimals are one number, and each number is ranked once, by its place in the ascending
list of all numbers of the batch.

Does not own: what is computed from the lanes.
-/

set_option autoImplicit false

namespace SlotLogic

open Decimal

variable {ranked : List Decimal} {number : Decimal} {slots : List Int} {rows : List Row}

/-! ## Places in a ranking -/

/-- A decimal of an ascending list has its place as its rank. -/
theorem rankOf_of_split {lower higher : List Decimal} {member : Decimal}
    (ascending : Ascending (lower ++ member :: higher))
    (same : member.toRat = number.toRat) :
    rankOf (lower ++ member :: higher) number = lower.length := by
  obtain ⟨-, -, across⟩ := List.pairwise_append.mp ascending
  have below : ∀ other ∈ lower, other.less number = true := by
    intro other inLower
    rw [less_iff, ← same]
    exact across other inLower member (List.mem_cons_self ..)
  have here : member.less number = false := by
    rw [Bool.eq_false_iff, ne_eq, less_iff, same]
    exact lt_irrefl _
  unfold rankOf
  rw [List.takeWhile_append_of_pos below, List.takeWhile_cons_of_neg (by simp [here]),
    List.append_nil]

/-- The ranks of the numbers of an ascending list are the places in it. -/
theorem exists_rankOf_iff (ascending : Ascending ranked) {rank : Nat} :
    (∃ member ∈ ranked, rankOf ranked member = rank) ↔ rank < ranked.length := by
  constructor
  · rintro ⟨member, inside, rfl⟩
    obtain ⟨lower, higher, rfl⟩ := List.append_of_mem inside
    rw [rankOf_of_split ascending rfl, List.length_append, List.length_cons]
    omega
  · intro within
    have split : ranked.take rank ++ ranked[rank] :: ranked.drop (rank + 1) = ranked := by
      rw [← List.drop_eq_getElem_cons within, List.take_append_drop]
    rw [← split] at ascending
    have placed := rankOf_of_split ascending rfl
    rw [split, List.length_take_of_le within.le] at placed
    exact ⟨ranked[rank], List.getElem_mem within, placed⟩

theorem mem_of_ranking {numbers : List Decimal} (member : number ∈ ranking numbers) :
    number ∈ numbers := by
  induction numbers with
  | nil => exact member
  | cons head tail inductionHypothesis =>
      rcases mem_of_insertByValue member with rfl | later
      · exact List.mem_cons_self ..
      · exact List.mem_cons_of_mem _ (inductionHypothesis later)

/-! ## Numbers of a batch -/

theorem mem_numbers :
    number ∈ BatchPlan.numbers slots rows ↔ ∃ row ∈ rows, row.HoldsNumber slots number := by
  have isNumber : ∀ datum : Datum,
      BatchPlan.number? datum = some number ↔ datum = .value (.number number) := by
    intro datum
    unfold BatchPlan.number?
    split
    · simp
    · rename_i other
      exact ⟨nofun, fun same => absurd same (other number)⟩
  simp only [BatchPlan.numbers, List.mem_flatMap, List.mem_filterMap, isNumber]
  rfl

/-- The numbers that some rows hold in some slots. -/
def heldNumbers (slots : List Int) (rows : List Row) : Set ℚ :=
  {value | ∃ row ∈ rows, ∃ number, row.HoldsNumber slots number ∧ number.toRat = value}

/-- The numbers that are held are those that are ranked. -/
theorem heldNumbers_eq :
    heldNumbers slots rows =
      {value | value ∈ (ranking (BatchPlan.numbers slots rows)).map toRat} := by
  ext value
  constructor
  · rintro ⟨row, inRows, number, holds, rfl⟩
    obtain ⟨member, inside, same⟩ := ranked_of_mem (mem_numbers.mpr ⟨row, inRows, holds⟩)
    exact List.mem_map.mpr ⟨member, inside, same⟩
  · intro listed
    obtain ⟨number, inside, rfl⟩ := List.mem_map.mp listed
    obtain ⟨row, inRows, holds⟩ := mem_numbers.mp (mem_of_ranking inside)
    exact ⟨row, inRows, number, holds, rfl⟩

/-- No number is ranked twice. -/
theorem ncard_heldNumbers :
    (heldNumbers slots rows).ncard = (ranking (BatchPlan.numbers slots rows)).length := by
  have once : ((ranking (BatchPlan.numbers slots rows)).map toRat).Nodup :=
    List.pairwise_map.mpr ((ranking_ascending _).imp fun below => below.ne)
  rw [heldNumbers_eq, ← List.coe_toFinset, Set.ncard_coe_finset, List.toFinset_card_of_nodup once,
    List.length_map]

/-! ## Lanes of slots -/

/-- The ranks of the lanes in which a number is held. -/
def ranksOfNumbers (slots : List Int) (rows : List Row) : Set Nat :=
  {rank | ∃ row ∈ rows, ∃ slot ∈ slots, ∃ number, row.read slot = .value (.number number) ∧
    (encodedLane slots rows row slot).rank = rank}

theorem rank_encodedLane {row : Row} {slot : Int} (held : row.read slot = .value (.number number)) :
    (encodedLane slots rows row slot).rank =
      rankOf (ranking (BatchPlan.numbers slots rows)) number := by
  unfold encodedLane
  rw [held]
  rfl

/-- The rank of a number is determined by what it stands for. -/
theorem rankOf_congr {other : Decimal} (same : number.toRat = other.toRat) :
    rankOf ranked number = rankOf ranked other :=
  Nat.le_antisymm (rankOf_le same.le) (rankOf_le same.ge)

theorem ranksOfNumbers_eq :
    ranksOfNumbers slots rows = Set.Iio (ranking (BatchPlan.numbers slots rows)).length := by
  ext rank
  rw [Set.mem_Iio, ← exists_rankOf_iff (ranking_ascending _)]
  constructor
  · rintro ⟨row, inRows, slot, listed, number, held, rfl⟩
    obtain ⟨member, inside, same⟩ :=
      ranked_of_mem (mem_numbers.mpr ⟨row, inRows, slot, listed, held⟩)
    exact ⟨member, inside, (rankOf_congr same).trans (rank_encodedLane held).symm⟩
  · rintro ⟨number, inside, rfl⟩
    obtain ⟨row, inRows, slot, listed, held⟩ := mem_numbers.mp (mem_of_ranking inside)
    exact ⟨row, inRows, slot, listed, number, held, rank_encodedLane held⟩

/-- The ranks of two numbers of a batch compare as the numbers. -/
theorem compare_rank_encodedLane {row row' : Row} {slot slot' : Int} {number' : Decimal}
    (inRows : row ∈ rows) (inRows' : row' ∈ rows) (listed : slot ∈ slots) (listed' : slot' ∈ slots)
    (held : row.read slot = .value (.number number))
    (held' : row'.read slot' = .value (.number number')) :
    compare (encodedLane slots rows row slot).rank (encodedLane slots rows row' slot').rank =
      compare number.toRat number'.toRat := by
  rw [rank_encodedLane held, rank_encodedLane held', ← compareValue_eq]
  exact compare_rankOf (ranking_ascending _)
    (ranked_of_mem (mem_numbers.mpr ⟨row, inRows, slot, listed, held⟩))
    (ranked_of_mem (mem_numbers.mpr ⟨row', inRows', slot', listed', held'⟩))

/-- Rows of values pass the check, and every run with these slots starts from their lanes. The
ranks in these lanes are the natural numbers below the number of the numbers that are held, and
two of them stand in the same order as the numbers, exactly and for exponents of any size. -/
theorem ranks_embed_numbers (held : ∀ row ∈ rows, HoldsValues slots row) :
    (∀ plan : BatchPlan, plan.slots = slots → plan.run rows =
      .ok (.ofLanes (rows.map fun row => plan.expr.lane (encodedLane slots rows row)))) ∧
    (heldNumbers slots rows).Finite ∧
    ranksOfNumbers slots rows = Set.Iio (heldNumbers slots rows).ncard ∧
    ∀ row ∈ rows, ∀ row' ∈ rows, ∀ slot ∈ slots, ∀ slot' ∈ slots, ∀ number number',
      row.read slot = .value (.number number) → row'.read slot' = .value (.number number') →
      let rank := (encodedLane slots rows row slot).rank
      let rank' := (encodedLane slots rows row' slot').rank
      (rank < rank' ↔ number.toRat < number'.toRat) ∧
        (rank = rank' ↔ number.toRat = number'.toRat) ∧
        (rank' < rank ↔ number'.toRat < number.toRat) := by
  refine ⟨?_, ?_, ?_, ?_⟩
  · rintro plan rfl
    exact run_of_holdsValues plan held
  · rw [heldNumbers_eq]
    exact List.finite_toSet _
  · rw [ranksOfNumbers_eq, ncard_heldNumbers]
  · intro row inRows row' inRows' slot listed slot' listed' number number' holds holds'
    have same := compare_rank_encodedLane inRows inRows' listed listed' holds holds'
    refine ⟨?_, ?_, ?_⟩
    · rw [← compare_lt_iff_lt, same, compare_lt_iff_lt]
    · rw [← compare_eq_iff_eq, same, compare_eq_iff_eq]
    · rw [← compare_gt_iff_gt, same, compare_gt_iff_gt]

/-- Rows with `1.0` and `1`, with `-0` and `0E+7`, with a number too large and a number too close to
zero to be written out, and with a list outside slots 1 and 2. -/
def scatteredRows : List Row :=
  [[(.integer 1, .value (.number ⟨false, 10, -1⟩)), (.integer 9, .list [])],
    [(.integer 1, .value (.number ⟨false, 1, 0⟩)), (.integer 2, .value (.number ⟨true, 0, 0⟩))],
    [(.integer 2, .value (.number ⟨false, 1, 999999999999999999⟩)),
      (.integer 1, .value (.number ⟨false, 0, 7⟩))],
    [(.integer 1, .value (.bool true)),
      (.integer 2, .value (.number ⟨true, 3, -1999999999999999997⟩))]]

/-- Six decimals are four numbers, with the ranks 0 to 3. The two that are `1` share one, and the
large one is higher. -/
theorem six_decimals_share_four_ranks :
    (∀ row ∈ scatteredRows, HoldsValues [1, 2] row) ∧
      ranksOfNumbers [1, 2] scatteredRows = Set.Iio 4 ∧
      (⟨false, 10, -1⟩ : Decimal).toRat = (⟨false, 1, 0⟩ : Decimal).toRat ∧
      (⟨false, 1, 0⟩ : Decimal).toRat < (⟨false, 1, 999999999999999999⟩ : Decimal).toRat := by
  have passed : BatchPlan.firstFault [1, 2] 0 scatteredRows = none := by rfl
  have held : ∀ row ∈ scatteredRows, HoldsValues [1, 2] row := holdsValues_of_firstFault passed
  have four : (heldNumbers [1, 2] scatteredRows).ncard = 4 := by
    rw [ncard_heldNumbers]
    decide +kernel
  obtain ⟨-, -, dense, compared⟩ := ranks_embed_numbers held
  rw [four] at dense
  have first : scatteredRows[0] ∈ scatteredRows := List.getElem_mem (by decide)
  have second : scatteredRows[1] ∈ scatteredRows := List.getElem_mem (by decide)
  have third : scatteredRows[2] ∈ scatteredRows := List.getElem_mem (by decide)
  have sameRank := compared _ first _ second 1 (by decide) 1 (by decide) _ _ rfl rfl
  have higherRank := compared _ second _ third 1 (by decide) 2 (by decide) _ _ rfl rfl
  exact ⟨held, dense, sameRank.2.1.mp (by decide +kernel), higherRank.1.mp (by decide +kernel)⟩

end SlotLogic
