import SlotLogic.Proofs.Batch.Agreement
import SlotLogic.Proofs.Tree.Drawing

/-!
Contract: evaluations, lanes, plans and canonical texts are refused for the same foreign
leaf of a tree, and drawings, walks and slots for none. In texts and drawings alone, an
index that is too long comes in between.

Owns: the faults of plans that are built from trees, what such plans compute, and the trees
on which an index that is too long to be written comes before the leaf.

No table looks at the size of an index. Texts and drawings write indices, and an index with
more digits than are written is a fault of its own.

Does not own: texts that stand where a tree should.
-/

set_option autoImplicit false

namespace SlotLogic

open SlotLogic.Text

/-! ## Plans -/

theorem compose_fault (source? : Option String) (root : Tree Datum) :
    faultOf? (Plan.compose source? root) = root.firstForeign?.map .foreignLeaf := by
  rw [← Tree.make_fault evaluations root]
  unfold Plan.compose Tree.compile
  split <;> simp [*, faultOf?]

theorem batch_compose_fault (compiled : Bool) (source? : Option String) (root : Tree Datum) :
    faultOf? (BatchPlan.compose compiled source? root) = root.firstForeign?.map .foreignLeaf := by
  rw [← Tree.make_fault lowerings root]
  unfold BatchPlan.compose Tree.lower
  split <;> simp [*, faultOf?]

variable {lenient compiled : Bool} {root : Tree Datum}

/-- A plan computes what is composed of the tree that it is built from. -/
theorem compile_of_build {plan : Plan}
    (built : (Plan.build lenient (.tree root)).outcome = .ok plan) :
    root.compile = .ok plan.evaluate := by
  rw [build_tree] at built
  rw [← (Plan.root_of_compose built).1]
  exact plan.composed

theorem lower_of_build {plan : BatchPlan}
    (built : (BatchPlan.build lenient compiled (.tree root)).outcome = .ok plan) :
    root.lower = .ok plan.lane := by
  rw [batch_build_tree] at built
  rw [← (BatchPlan.root_of_compose built).1]
  exact plan.composed

/-! ## Refusals -/

/-- Composing an evaluation, building a plan, composing a lane and building a batch plan all
fail exactly on the trees with a foreign leaf, and all for the first one that the walk
visits, which the message names by its type. What is composed is what the plan computes.
Writing the canonical text fails for the first node of the walk that is a foreign leaf or a
slot with an index beyond the limit of digits, and drawing for the first such index. So
where no index is beyond the limit, writing fails for the first foreign leaf and drawing
does not fail. A drawing has a line for whatever the walk visits, and every tree has a walk
and slots. -/
theorem consumers_refuse_first_foreign_leaf (root : Tree Datum) (lenient compiled : Bool)
    (notText : ∀ source, root ≠ .foreign (.text source)) :
    faultOf? root.compile = root.firstForeign? ∧
    faultOf? (Plan.build lenient (.ofTree root)).outcome =
      root.firstForeign?.map .foreignLeaf ∧
    faultOf? root.lower = root.firstForeign? ∧
    faultOf? (BatchPlan.build lenient compiled (.ofTree root)).outcome =
      root.firstForeign?.map .foreignLeaf ∧
    (∀ leaf : Datum, foreignMessage leaf = "Unsupported AST node " ++ leaf.typeName ∧
      (Tree.SourceFault.foreignLeaf leaf).message = foreignMessage leaf) ∧
    (∀ plan, (Plan.build lenient (.ofTree root)).outcome = .ok plan →
      root.compile = .ok plan.evaluate) ∧
    (∀ batch, (BatchPlan.build lenient compiled (.ofTree root)).outcome = .ok batch →
      root.lower = .ok batch.lane) ∧
    faultOf? root.source = root.firstUnwritable? ∧
    faultOf? root.draw = root.firstOverlong? ∧
    ((∀ index ∈ root.slots, index.natAbs < 10 ^ digitLimit) →
      faultOf? root.source = root.firstForeign?.map .foreignLeaf ∧
        root.draw = .ok root.drawing) ∧
    (∀ lines, root.drawLines [] [] = .ok lines →
      List.Forall₂ (· <:+ ·) (root.preorder.flatMap Tree.shown) lines) ∧
    ∀ index, index ∈ root.slots ↔ .slot index ∈ root.preorder := by
  rw [ofTree_of_not_text notText]
  refine ⟨Tree.make_fault _ root, ?_, Tree.make_fault _ root, ?_, fun _ => ⟨rfl, rfl⟩,
    fun _ => compile_of_build, fun _ => lower_of_build, Tree.source_fault root,
    Tree.draw_fault root, ?_, ?_, fun _ => Tree.mem_slots⟩
  · rw [build_tree, compose_fault]
  · rw [batch_build_tree, batch_compose_fault]
  · intro written
    have short := Tree.firstOverlong?_eq_none_iff.mpr written
    exact ⟨(Tree.source_fault root).trans (Tree.firstUnwritable?_of_short short),
      Tree.draw_eq short⟩
  · intro lines drawn
    rw [Tree.lines_of_drawLines drawn]
    exact Tree.lines_end root [] []

/-- A choice with one foreign leaf in each branch, below a test that is null. -/
def misplacedLeaves : Tree Datum :=
  .choose (.compare .lt .null (.slot 2)) (.connect .or (.slot 1) (.foreign (.integer 7)))
    (.foreign (.list []))

/-- The first leaf is refused by all, though no evaluation would come to its branch. -/
theorem leaf_of_untaken_branch_is_refused :
    faultOf? misplacedLeaves.compile = some (.integer 7) ∧
    faultOf? (Plan.build false (.ofTree misplacedLeaves)).outcome =
      some (.foreignLeaf (.integer 7)) ∧
    faultOf? (BatchPlan.build false true (.ofTree misplacedLeaves)).outcome =
      some (.foreignLeaf (.integer 7)) ∧
    faultOf? misplacedLeaves.source = some (.foreignLeaf (.integer 7)) ∧
    misplacedLeaves.draw = .ok misplacedLeaves.drawing ∧
    foreignMessage (Datum.integer 7) = "Unsupported AST node int" := by
  have first : misplacedLeaves.firstForeign? = some (.integer 7) := by
    rw [← Tree.make_fault evaluations]
    rfl
  have notText : ∀ source, misplacedLeaves ≠ .foreign (.text source) := by
    intro source same
    cases same
  have written : ∀ index ∈ misplacedLeaves.slots, index.natAbs < 10 ^ digitLimit := by
    have within : misplacedLeaves.EverySlot fun index => index.natAbs < 10 ^ digitLimit := by
      refine ⟨⟨trivial, ?_⟩, ⟨?_, trivial⟩, trivial⟩ <;>
        exact natAbs_lt_of_le (by decide) (by decide)
    exact Tree.everySlot_iff.mp within
  obtain ⟨compiles, builds, -, lowers, message, -, -, -, -, short, -⟩ :=
    consumers_refuse_first_foreign_leaf misplacedLeaves false true notText
  obtain ⟨writes, draws⟩ := short written
  rw [first] at compiles builds lowers writes
  exact ⟨compiles, builds, lowers, writes, draws, (message _).1⟩

/-- A slot with an index of one digit more than are written. -/
def longSlot : Tree Datum :=
  .slot (10 ^ digitLimit)

/-- A comparison of this slot with a foreign leaf. -/
def longSlotBeforeLeaf : Tree Datum :=
  .compare .eq longSlot (.foreign (.integer 7))

/-- The slot has no foreign leaf, but neither a text nor a drawing; and a comparison that is
refused for its leaf has no text because of the slot before it. -/
theorem long_index_is_refused :
    digitLimit = 4300 ∧ longSlot.firstForeign? = none ∧
    faultOf? longSlot.source = some (.overlongIndex ⟨10 ^ digitLimit⟩) ∧
    faultOf? longSlot.draw = some ⟨10 ^ digitLimit⟩ ∧
    faultOf? longSlotBeforeLeaf.compile = some (.integer 7) ∧
    faultOf? longSlotBeforeLeaf.source = some (.overlongIndex ⟨10 ^ digitLimit⟩) := by
  have power (digits : Nat) : ((10 : Int) ^ digits).natAbs = 10 ^ digits :=
    Int.natAbs_pow 10 digits
  have long : overlong? (10 ^ digitLimit) = some ⟨10 ^ digitLimit⟩ := by
    rw [overlong?_eq, power, if_neg (Nat.lt_irrefl _)]
  -- The number stays closed: these hold of any index and of any two operands.
  have ofSlot (index : Int) : (Tree.slot index : Tree Datum).firstForeign? = none ∧
      (Tree.slot index : Tree Datum).firstOverlong? = overlong? index ∧
      (Tree.slot index : Tree Datum).firstUnwritable? = (overlong? index).map .overlongIndex :=
    ⟨Tree.first?_leaf rfl, Tree.first?_leaf rfl, Tree.first?_leaf rfl⟩
  have ofTwo (first second : Tree Datum) : (Tree.compare .eq first second).firstUnwritable? =
      first.firstUnwritable?.or second.firstUnwritable? := Tree.first?_two rfl rfl
  have compiles (index : Int) :
      faultOf? (Tree.compare .eq (.slot index) (.foreign (Datum.integer 7))).compile =
        some (.integer 7) := rfl
  obtain ⟨foreign, overlong, unwritable⟩ := ofSlot (10 ^ digitLimit)
  rw [long] at overlong unwritable
  refine ⟨rfl, foreign, ?_, ?_, compiles _, ?_⟩
  · rw [Tree.source_fault]
    exact unwritable
  · rw [Tree.draw_fault]
    exact overlong
  · rw [Tree.source_fault, longSlotBeforeLeaf, ofTwo, longSlot, unwritable]
    rfl

end SlotLogic
