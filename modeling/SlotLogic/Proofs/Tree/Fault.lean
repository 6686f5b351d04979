import Mathlib.Algebra.Group.Nat.Defs
import Mathlib.Data.List.Basic
import SlotLogic.Proofs.Tree.Slots
import SlotLogic.Token.Basic
import SlotLogic.Tree.Source
import SlotLogic.Tree.Table

/-!
Contract: what is made of a tree from left to right fails for the first node of the walk
that fails by itself, and for nothing else.

Owns: outcomes of two and of three steps, the fault of an outcome, what is told of the first
node of a walk, the nodes without a place in a table or without a text, and the faults of
tables and of canonical texts.

The walk keeps the nodes that have yet to be visited on a stack, and the makers recurse.
Both come to the children of a node from left to right, so they meet the same node first.

Does not own: what the tables are.
-/

set_option autoImplicit false

namespace SlotLogic

open SlotLogic.Text

/-! ## Outcomes -/

section

variable {Fault First Second Third Whole : Type}

/-- Of two steps that come out well each has come out well. -/
theorem ok_two {first : Except Fault First} {second : Except Fault Second}
    {finish : First → Second → Whole} {whole : Whole}
    (made : (do return finish (← first) (← second)) = Except.ok whole) :
    ∃ value value', first = .ok value ∧ second = .ok value' ∧ whole = finish value value' := by
  cases first with
  | error fault => cases made
  | ok value =>
      cases second with
      | error fault => cases made
      | ok value' => exact ⟨value, value', rfl, rfl, (Except.ok.inj made).symm⟩

theorem ok_three {first : Except Fault First} {second : Except Fault Second}
    {third : Except Fault Third} {finish : First → Second → Third → Whole} {whole : Whole}
    (made : (do return finish (← first) (← second) (← third)) = Except.ok whole) :
    ∃ value value' value'', first = .ok value ∧ second = .ok value' ∧ third = .ok value'' ∧
      whole = finish value value' value'' := by
  cases first with
  | error fault => cases made
  | ok value =>
      obtain ⟨value', value'', rfl, rfl, same⟩ := ok_two made
      exact ⟨value, value', value'', rfl, rfl, rfl, same⟩

/-- The fault of an outcome, if it is one. -/
def faultOf? : Except Fault Whole → Option Fault
  | .error fault => some fault
  | .ok _ => none

theorem ok_of_faultOf? {outcome : Except Fault Whole} (none : faultOf? outcome = none) :
    ∃ whole, outcome = .ok whole := by
  cases outcome with
  | error fault => cases none
  | ok whole => exact ⟨whole, rfl⟩

theorem faultOf?_map (make : First → Whole) (outcome : Except Fault First) :
    faultOf? (outcome.map make) = faultOf? outcome := by
  cases outcome <;> rfl

theorem faultOf?_mapError {Fault' : Type} (retell : Fault → Fault')
    (outcome : Except Fault Whole) :
    faultOf? (outcome.mapError retell) = (faultOf? outcome).map retell := by
  cases outcome <;> rfl

/-- Of two steps the first fault counts. -/
theorem faultOf?_bind {outcome : Except Fault First} {next : First → Except Fault Whole}
    {later : Option Fault} (same : ∀ value, faultOf? (next value) = later) :
    faultOf? (outcome >>= next) = (faultOf? outcome).or later := by
  cases outcome with
  | error fault => rfl
  | ok value => exact same value

theorem faultOf?_two (first : Except Fault First) (second : Except Fault Second)
    (finish : First → Second → Whole) :
    faultOf? (do return finish (← first) (← second)) = (faultOf? first).or (faultOf? second) := by
  apply faultOf?_bind
  intro value
  have last : faultOf? (second >>= fun other => pure (finish value other)) =
      (faultOf? second).or none := faultOf?_bind fun _ => rfl
  rw [Option.or_none] at last
  exact last

theorem faultOf?_three (first : Except Fault First) (second : Except Fault Second)
    (third : Except Fault Third) (finish : First → Second → Third → Whole) :
    faultOf? (do return finish (← first) (← second) (← third)) =
      (faultOf? first).or ((faultOf? second).or (faultOf? third)) := by
  apply faultOf?_bind
  intro value
  exact faultOf?_two second third (finish value)

end

namespace Text

theorem overlong?_eq (number : Int) :
    overlong? number = if number.natAbs < 10 ^ digitLimit then none else some ⟨number⟩ := by
  have fits := Nat.length_toDigits_le_iff (n := number.natAbs) (by decide : 1 < 10)
    (by decide : 0 < digitLimit)
  unfold overlong?
  by_cases short : number.natAbs < 10 ^ digitLimit
  · rw [if_neg (Nat.not_lt.mpr (fits.mpr short)), if_pos short]
  · rw [if_pos (Nat.lt_of_not_le (mt fits.mp short)), if_neg short]

theorem overlong?_eq_none_iff {number : Int} :
    overlong? number = none ↔ number.natAbs < 10 ^ digitLimit := by
  rw [overlong?_eq]
  split <;> simp [*]

/-- The indices that a statement can name are within the limit. -/
theorem natAbs_lt_of_le {number : Int} (nonnegative : 0 ≤ number)
    (within : number ≤ greatestIndex) : number.natAbs < 10 ^ digitLimit := by
  have short : 10 ^ 3 ≤ 10 ^ digitLimit := Nat.pow_le_pow_right (by decide) (by decide)
  have greatest : greatestIndex = 255 := rfl
  omega

theorem faultOf?_printInteger (number : Int) : faultOf? (printInteger number) = overlong? number := by
  unfold printInteger
  cases overlong? number <;> rfl

/-- An integer that is written within the limit is written as any other. -/
theorem writeInteger_of_print {number : Int} {digits : List Char}
    (printed : printInteger number = .ok digits) : digits = writeInteger number := by
  unfold printInteger at printed
  split at printed
  · cases printed
  · exact (Except.ok.inj printed).symm

end Text

namespace Tree

variable {Foreign Told Result : Type}

/-! ## The first node of a walk -/

/-- What is told of the first node of the walk that anything is told of. -/
def first? (tell : Tree Foreign → Option Told) (tree : Tree Foreign) : Option Told :=
  tree.preorder.findSome? tell

section

variable {tell : Tree Foreign → Option Told} {node : Tree Foreign}

theorem first?_leaf (leaf : node.children = []) : node.first? tell = tell node := by
  rw [first?, preorder_eq, leaf]
  simp

/-- A node of which nothing is told leaves the answer to its children. -/
theorem first?_two {left right : Tree Foreign} (own : tell node = none)
    (below : node.children = [left, right]) :
    node.first? tell = (left.first? tell).or (right.first? tell) := by
  rw [first?, preorder_eq, below, List.findSome?_cons, own]
  simp [first?, List.findSome?_append]

theorem first?_three {first second third : Tree Foreign} (own : tell node = none)
    (below : node.children = [first, second, third]) :
    node.first? tell = (first.first? tell).or ((second.first? tell).or (third.first? tell)) := by
  rw [first?, preorder_eq, below, List.findSome?_cons, own]
  simp [first?, List.findSome?_append]

end

/-- The foreign leaf that a node is, if it is one. -/
def foreign? : Tree Foreign → Option Foreign
  | foreign leaf => some leaf
  | _ => none

/-- The first foreign leaf that the walk visits. -/
def firstForeign? (tree : Tree Foreign) : Option Foreign :=
  tree.first? foreign?

/-- The index of a node, if it is too long to be written. -/
def overlongIndex? (node : Tree Foreign) : Option OverlongInteger :=
  node.index?.bind overlong?

/-- The first index that the walk visits and that is too long to be written. -/
def firstOverlong? (tree : Tree Foreign) : Option OverlongInteger :=
  tree.first? overlongIndex?

/-- What keeps a node by itself from having a text. -/
def unwritable? : Tree Foreign → Option (SourceFault Foreign)
  | foreign leaf => some (.foreignLeaf leaf)
  | node => node.overlongIndex?.map .overlongIndex

/-- What keeps the first node from having a text that has none by itself. -/
def firstUnwritable? (tree : Tree Foreign) : Option (SourceFault Foreign) :=
  tree.first? unwritable?

theorem firstOverlong?_eq_none_iff {tree : Tree Foreign} :
    tree.firstOverlong? = none ↔ ∀ index ∈ tree.slots, index.natAbs < 10 ^ digitLimit := by
  simp only [← overlong?_eq_none_iff]
  rw [firstOverlong?, first?, List.findSome?_eq_none_iff]
  constructor
  · intro short index member
    exact short _ (mem_slots.mp member)
  · intro short node member
    cases node with
    | slot index => exact short index (mem_slots.mpr member)
    | null | connect | compare | choose | foreign => rfl

/-- Where every index can be written, only foreign leaves have no text. -/
theorem firstUnwritable?_of_short {tree : Tree Foreign} (short : tree.firstOverlong? = none) :
    tree.firstUnwritable? = tree.firstForeign?.map .foreignLeaf := by
  have own : ∀ node ∈ tree.preorder, node.unwritable? = node.foreign?.map .foreignLeaf := by
    intro node member
    cases node with
    | foreign leaf => rfl
    | null | slot | connect | compare | choose =>
        have written := List.findSome?_eq_none_iff.mp short _ member
        rw [unwritable?, written]
        · rfl
        · rintro leaf ⟨⟩
  rw [firstUnwritable?, firstForeign?, first?, first?, List.map_findSome?,
    ← List.head?_filterMap, ← List.head?_filterMap, List.filterMap_congr own]
  rfl

/-- An expression has no foreign leaf. -/
theorem firstForeign?_expr (expr : Expr) : expr.firstForeign? = none := by
  rw [firstForeign?, first?, List.findSome?_eq_none_iff]
  intro node _
  cases node with
  | foreign leaf => exact leaf.elim
  | null | slot | connect | compare | choose => rfl

/-! ## Faults -/

/-- What a table makes of a tree is refused for the first foreign leaf. -/
theorem make_fault (table : Table Result) (tree : Tree Foreign) :
    faultOf? (tree.make table) = tree.firstForeign? := by
  unfold firstForeign?
  induction tree with
  | null | slot | foreign => exact Eq.symm (first?_leaf rfl)
  | connect operator left right leftHypothesis rightHypothesis
  | compare operator left right leftHypothesis rightHypothesis =>
      rw [make, faultOf?_two, leftHypothesis, rightHypothesis]
      exact Eq.symm (first?_two rfl rfl)
  | choose condition consequent alternative testHypothesis thenHypothesis elseHypothesis =>
      rw [make, faultOf?_three, testHypothesis, thenHypothesis, elseHypothesis]
      exact Eq.symm (first?_three rfl rfl)

/-- A canonical text encloses its operands only after both have one. -/
theorem source_fault (tree : Tree Foreign) : faultOf? tree.source = tree.firstUnwritable? := by
  unfold firstUnwritable?
  induction tree with
  | null | foreign => exact Eq.symm (first?_leaf rfl)
  | slot index =>
      rw [source, faultOf?_mapError, faultOf?_printInteger]
      exact Eq.symm (first?_leaf rfl)
  | connect operator left right leftHypothesis rightHypothesis
  | compare operator left right leftHypothesis rightHypothesis =>
      rw [source, faultOf?_two, leftHypothesis, rightHypothesis]
      exact Eq.symm (first?_two rfl rfl)
  | choose condition consequent alternative testHypothesis thenHypothesis elseHypothesis =>
      rw [source, faultOf?_three, testHypothesis, thenHypothesis, elseHypothesis]
      exact Eq.symm (first?_three rfl rfl)

end Tree

end SlotLogic
