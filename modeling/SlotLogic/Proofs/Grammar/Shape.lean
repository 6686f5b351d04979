import SlotLogic.Proofs.Grammar.Phrase
import SlotLogic.Proofs.Tree.Slots

/-!
Contract: the trees that statements have.

Owns: the tests of a tree for an operand, a condition and a statement, the slots of such
trees, and the shape of the tree of every phrase.

A statement tree is a choice by a condition. A condition compares operands, and
connects conditions in any nesting. An operand is `null` or a slot of an index that
a statement can name, and a branch is an operand or again a statement tree.

Does not own: the texts of such trees.
-/

set_option autoImplicit false

namespace SlotLogic

namespace Tree

variable {Foreign : Type}

/-- `null`, or a slot that a statement can name. -/
def isOperand : Tree Foreign → Bool
  | null => true
  | slot index => decide (1 ≤ index) && decide (index ≤ greatestIndex)
  | _ => false

/-- Comparisons of operands, connected in any nesting. -/
def isCondition : Tree Foreign → Bool
  | compare _ left right => left.isOperand && right.isOperand
  | connect _ left right => left.isCondition && right.isCondition
  | _ => false

/-- A choice by a condition between branches that are operands or choices. -/
def isStatement : Tree Foreign → Bool
  | choose condition consequent alternative =>
    condition.isCondition && (consequent.isOperand || consequent.isStatement)
      && (alternative.isOperand || alternative.isStatement)
  | _ => false

/-- An operand, or a statement tree. -/
def isBranch (tree : Tree Foreign) : Bool :=
  tree.isOperand || tree.isStatement

theorem isStatement_choose (condition consequent alternative : Tree Foreign) :
    (choose condition consequent alternative).isStatement = true ↔
      condition.isCondition = true ∧ consequent.isBranch = true ∧
        alternative.isBranch = true := by
  simp [isStatement, isBranch, and_assoc]

theorem isOperand_slot (index : Int) :
    (slot index : Tree Foreign).isOperand = true ↔ 1 ≤ index ∧ index ≤ greatestIndex := by
  simp [isOperand]

/-- Every slot of a branch can be named in a statement. -/
theorem everySlot_of_isBranch {tree : Tree Foreign} (isBranch : tree.isBranch = true) :
    tree.EverySlot fun index => 1 ≤ index ∧ index ≤ greatestIndex := by
  have onOperand : ∀ {tree : Tree Foreign}, tree.isOperand = true →
      tree.EverySlot fun index => 1 ≤ index ∧ index ≤ greatestIndex := by
    intro tree operand
    cases tree with
    | null => trivial
    | slot index => exact (isOperand_slot index).mp operand
    | connect | compare | choose | foreign => cases operand
  have onCondition : ∀ {tree : Tree Foreign}, tree.isCondition = true →
      tree.EverySlot fun index => 1 ≤ index ∧ index ≤ greatestIndex := by
    intro tree condition
    induction tree with
    | compare operator left right =>
        obtain ⟨leftOperand, rightOperand⟩ := Bool.and_eq_true_iff.mp condition
        exact ⟨onOperand leftOperand, onOperand rightOperand⟩
    | connect operator left right leftHypothesis rightHypothesis =>
        obtain ⟨leftCondition, rightCondition⟩ := Bool.and_eq_true_iff.mp condition
        exact ⟨leftHypothesis leftCondition, rightHypothesis rightCondition⟩
    | null | slot | choose | foreign => cases condition
  induction tree with
  | choose condition consequent alternative _ thenHypothesis elseHypothesis =>
      obtain ⟨test, first, second⟩ := (isStatement_choose _ _ _).mp isBranch
      exact ⟨onCondition test, thenHypothesis first, elseHypothesis second⟩
  | null => trivial
  | slot index =>
      rcases Bool.or_eq_true_iff.mp isBranch with operand | statement
      · exact onOperand operand
      · cases statement
  | connect | compare | foreign => cases isBranch

end Tree

namespace Phrase

/-- The shape of the trees of a phrase. -/
def shape : Phrase → Expr → Bool
  | .value => Tree.isOperand
  | .comparison | .conjunction | .chain _ => Tree.isCondition
  | .expression => Tree.isBranch
  | .ifExpression | .statement => Tree.isStatement

theorem shape_operand (operator : Connective) : operator.operand.shape = Tree.isCondition := by
  cases operator <;> rfl

/-- The numerals among some tokens name slots that a statement can name. -/
def IndicesInRange (tokens : List Token) : Prop :=
  ∀ token ∈ tokens, ∀ index, token.index? = some index → 1 ≤ index ∧ index ≤ greatestIndex

/-- The tree of a phrase has the shape of the phrase. -/
theorem Derives.shape {phrase : Phrase} {tokens : List Token} {expr : Expr}
    (derives : phrase.Derives tokens expr) (inRange : IndicesInRange tokens) :
    phrase.shape expr = true := by
  induction derives with
  | null kind => rfl
  | @numeral token index names =>
      have range := inRange token (List.mem_singleton_self token) index names
      show Tree.isOperand (.slot index : Expr) = true
      rw [Tree.isOperand_slot]
      exact ⟨Int.ofNat_le.mpr range.1, Int.ofNat_le.mpr range.2⟩
  | comparison _ _ _ first second =>
      have left := first fun token member => inRange token (by simp [member])
      have right := second fun token member => inRange token (by simp [member])
      exact Bool.and_eq_true_iff.mpr ⟨left, right⟩
  | compared _ inductionHypothesis => exact inductionHypothesis inRange
  | enclosed _ _ _ inductionHypothesis =>
      exact inductionHypothesis fun token member => inRange token (by simp [member])
  | @single operator _ _ _ inductionHypothesis =>
      have only := inductionHypothesis inRange
      rw [shape_operand] at only
      exact only
  | @link operator _ _ _ _ _ _ _ _ first second =>
      have left := first fun token member => inRange token (by simp [member])
      have right := second fun token member => inRange token (by simp [member])
      rw [shape_operand] at right
      exact Bool.and_eq_true_iff.mpr ⟨left, right⟩
  | plain _ inductionHypothesis =>
      have operand := inductionHypothesis inRange
      exact Bool.or_eq_true_iff.mpr (.inl operand)
  | nested _ inductionHypothesis =>
      have statement := inductionHypothesis inRange
      exact Bool.or_eq_true_iff.mpr (.inr statement)
  | ifExpression _ _ _ _ _ _ _ _ condition thenBranch elseBranch =>
      have test := condition fun token member => inRange token (by simp [member])
      have consequent := thenBranch fun token member => inRange token (by simp [member])
      have alternative := elseBranch fun token member => inRange token (by simp [member])
      exact (Tree.isStatement_choose _ _ _).mpr ⟨test, consequent, alternative⟩
  | statement _ inductionHypothesis => exact inductionHypothesis inRange

end Phrase

end SlotLogic
