import Mathlib.Data.List.Nodup
import SlotLogic.Proofs.Token.Writing
import SlotLogic.Proofs.Tree.Fault
import SlotLogic.Tree.Drawing

/-!
Contract: a drawing determines the tree that it shows.

Owns: the lines of a tree with every index written, the trees that cannot be drawn, the
first and the later lines of a node, where the lines of a child end, the lines of a
drawing, and the trees that have one drawing.

Every line of a node but the first starts with the margin of the node. The margin of a
child with a later sibling ends with a trunk, and no connector is a trunk, so the lines of
such a child end where a line starts with something else.

Does not own: which nodes a tree has.
-/

set_option autoImplicit false

namespace SlotLogic

open SlotLogic.Text

/-! ## Indices -/

theorem not_minus_of_mem_toDigits {number : Nat} : '-' ∉ Nat.toDigits 10 number := by
  intro member
  have digit := Nat.isDigit_of_mem_toDigits (by decide) (by decide) member
  revert digit
  decide

theorem toDigits_injective {number other : Nat}
    (same : Nat.toDigits 10 number = Nat.toDigits 10 other) : number = other := by
  rw [← numeralValue_toDigits number, same, numeralValue_toDigits]

theorem writeInteger_injective {number other : Int}
    (same : writeInteger number = writeInteger other) : number = other := by
  -- A minus is no digit, so the two signs agree.
  have signed : ∀ {negative other : Nat},
      '-' :: Nat.toDigits 10 negative ≠ Nat.toDigits 10 other := by
    intro negative other same
    apply not_minus_of_mem_toDigits
    rw [← same]
    exact List.mem_cons_self ..
  by_cases first : number < 0 <;> by_cases second : other < 0 <;>
    simp only [writeInteger, first, second, if_true, if_false, List.nil_append,
      List.cons_append, List.cons.injEq, true_and] at same
  · have magnitude := toDigits_injective same
    omega
  · exact absurd same signed
  · exact absurd same.symm signed
  · have magnitude := toDigits_injective same
    omega

namespace Tree

variable {Foreign : Type} [TypeNamed Foreign]

/-! ## Trees that can be drawn -/

/-- The lines of a tree with every index written, whatever its length. -/
def lines (lead margin : List Char) : Tree Foreign → List (List Char)
  | null => [lead ++ (null : Tree Foreign).label.toList]
  | foreign leaf => [lead ++ (foreign leaf).label.toList]
  | slot index =>
    [lead ++ (slot index : Tree Foreign).label.toList,
      margin ++ corner ++ ['\x60'] ++ writeInteger index ++ ['\x60']]
  | connect operator left right =>
    (lead ++ operator.label.toList)
      :: (lines (margin ++ branch) (margin ++ trunk) left
        ++ lines (margin ++ corner) (margin ++ gap) right)
  | compare operator left right =>
    (lead ++ operator.label.toList)
      :: (lines (margin ++ branch) (margin ++ trunk) left
        ++ lines (margin ++ corner) (margin ++ gap) right)
  | choose condition consequent alternative =>
    (lead ++ (choose condition consequent alternative).label.toList)
      :: (lines (margin ++ branch) (margin ++ trunk) condition
        ++ lines (margin ++ branch) (margin ++ trunk) consequent
        ++ lines (margin ++ corner) (margin ++ gap) alternative)

/-- The drawing of a tree with every index written. -/
def drawing (tree : Tree Foreign) : List Char :=
  ['\n'].intercalate (tree.lines [] [])

theorem lines_of_drawLines {tree : Tree Foreign} {lead margin : List Char}
    {drawn : List (List Char)} (made : tree.drawLines lead margin = .ok drawn) :
    drawn = tree.lines lead margin := by
  induction tree generalizing lead margin drawn with
  | null | foreign =>
      cases made
      rfl
  | slot index =>
      rw [drawLines] at made
      cases printed : printInteger index with
      | error fault =>
          rw [printed] at made
          cases made
      | ok digits =>
          rw [printed] at made
          cases made
          rw [writeInteger_of_print printed]
          rfl
  | connect operator left right leftHypothesis rightHypothesis
  | compare operator left right leftHypothesis rightHypothesis =>
      obtain ⟨upper, lower, first, second, rfl⟩ := ok_two made
      rw [leftHypothesis first, rightHypothesis second]
      rfl
  | choose condition consequent alternative testHypothesis thenHypothesis elseHypothesis =>
      obtain ⟨upper, middle, lower, first, second, third, rfl⟩ := ok_three made
      rw [testHypothesis first, thenHypothesis second, elseHypothesis third]
      rfl

/-- Lines are refused for the first index that is too long, and for nothing else. -/
theorem drawLines_fault (tree : Tree Foreign) (lead margin : List Char) :
    faultOf? (tree.drawLines lead margin) = tree.firstOverlong? := by
  unfold firstOverlong?
  induction tree generalizing lead margin with
  | null | foreign => exact Eq.symm (first?_leaf rfl)
  | slot index =>
      have own : faultOf? ((slot index : Tree Foreign).drawLines lead margin) = overlong? index := by
        rw [drawLines, ← faultOf?_printInteger]
        cases printInteger index <;> rfl
      rw [own]
      exact Eq.symm (first?_leaf rfl)
  | connect operator left right leftHypothesis rightHypothesis
  | compare operator left right leftHypothesis rightHypothesis =>
      rw [drawLines, faultOf?_two, leftHypothesis, rightHypothesis]
      exact Eq.symm (first?_two rfl rfl)
  | choose condition consequent alternative testHypothesis thenHypothesis elseHypothesis =>
      rw [drawLines, faultOf?_three, testHypothesis, thenHypothesis, elseHypothesis]
      exact Eq.symm (first?_three rfl rfl)

theorem draw_eq_map (tree : Tree Foreign) :
    tree.draw = (tree.drawLines [] []).map ['\n'].intercalate := by
  rw [draw]
  cases tree.drawLines [] [] <;> rfl

theorem draw_fault (tree : Tree Foreign) : faultOf? tree.draw = tree.firstOverlong? := by
  rw [draw_eq_map, faultOf?_map, drawLines_fault]

theorem drawing_of_draw {tree : Tree Foreign} {text : List Char} (drawn : tree.draw = .ok text) :
    text = tree.drawing := by
  rw [draw_eq_map] at drawn
  cases made : tree.drawLines [] [] with
  | error fault =>
      rw [made] at drawn
      cases drawn
  | ok lines =>
      rw [made] at drawn
      cases drawn
      rw [lines_of_drawLines made, drawing]

/-- A tree is drawn where each of its indices can be written. -/
theorem draw_eq {tree : Tree Foreign} (short : tree.firstOverlong? = none) :
    tree.draw = .ok tree.drawing := by
  obtain ⟨text, drawn⟩ := ok_of_faultOf? ((draw_fault tree).trans short)
  rw [drawn, drawing_of_draw drawn]

/-! ## Labels -/

/-- A node without what stands below it. -/
def crown : Expr → Expr
  | null => .null
  | slot _ => .slot 0
  | connect operator _ _ => .connect operator .null .null
  | compare operator _ _ => .compare operator .null .null
  | choose _ _ _ => .choose .null .null .null
  | foreign leaf => leaf.elim

def crowns : List Expr :=
  [.null, .slot 0, .connect .and .null .null, .connect .or .null .null,
    .compare .eq .null .null, .compare .ne .null .null, .compare .ge .null .null,
    .compare .gt .null .null, .compare .le .null .null, .compare .lt .null .null,
    .choose .null .null .null]

theorem crown_mem (expr : Expr) : expr.crown ∈ crowns := by
  cases expr with
  | null | slot | choose => simp [crown, crowns]
  | connect operator => cases operator <;> simp [crown, crowns]
  | compare operator => cases operator <;> simp [crown, crowns]
  | foreign leaf => exact leaf.elim

theorem label_crown (expr : Expr) : expr.crown.label = expr.label := by
  cases expr with
  | foreign leaf => exact leaf.elim
  | null | slot | connect | compare | choose => rfl

theorem nodup_labels_of_crowns : (crowns.map label).Nodup := by
  decide

/-- The label of a node tells its sort and its operator. -/
theorem crown_of_label {first second : Expr} (same : first.label = second.label) :
    first.crown = second.crown := by
  apply List.inj_on_of_nodup_map nodup_labels_of_crowns (crown_mem first) (crown_mem second)
  rw [label_crown, label_crown, same]

/-! ## The lines of a node -/

theorem head?_lines (tree : Tree Foreign) (lead margin : List Char) :
    (tree.lines lead margin).head? = some (lead ++ tree.label.toList) := by
  cases tree <;> rfl

theorem lines_ne_nil (tree : Tree Foreign) (lead margin : List Char) :
    tree.lines lead margin ≠ [] := by
  cases tree <;> simp [lines]

/-- A property of lines that stays when any piece of a drawing is put behind them. -/
structure Grows (Foreign : Type) [TypeNamed Foreign] (Holds : List Char → Prop) : Prop where
  connector : ∀ start, ∀ piece ∈ [branch, trunk, corner, gap], Holds start → Holds (start ++ piece)
  label : ∀ start, ∀ node : Tree Foreign, Holds start → Holds (start ++ node.label.toList)
  index : ∀ start, ∀ number : Int, Holds start →
    Holds (start ++ ['\x60'] ++ writeInteger number ++ ['\x60'])

/-- What the lead and the margin of a node have, and no piece takes away, all of its lines
have. -/
theorem Grows.forall_mem_lines {Holds : List Char → Prop} (grows : Grows Foreign Holds)
    {tree : Tree Foreign} {lead margin : List Char} (onLead : Holds lead)
    (onMargin : Holds margin) : ∀ line ∈ tree.lines lead margin, Holds line := by
  have onBranch : ∀ {margin : List Char}, Holds margin →
      Holds (margin ++ branch) ∧ Holds (margin ++ trunk) := fun onMargin =>
    ⟨grows.connector _ _ (by simp) onMargin, grows.connector _ _ (by simp) onMargin⟩
  have onCorner : ∀ {margin : List Char}, Holds margin →
      Holds (margin ++ corner) ∧ Holds (margin ++ gap) := fun onMargin =>
    ⟨grows.connector _ _ (by simp) onMargin, grows.connector _ _ (by simp) onMargin⟩
  induction tree generalizing lead margin with
  | null | foreign =>
      simp only [lines, List.mem_singleton, forall_eq]
      exact grows.label _ _ onLead
  | slot index =>
      simp only [lines, List.mem_cons, List.not_mem_nil, or_false, forall_eq_or_imp, forall_eq]
      exact ⟨grows.label _ _ onLead, grows.index _ _ (onCorner onMargin).1⟩
  | connect operator left right leftHypothesis rightHypothesis =>
      simp only [lines, List.mem_cons, List.mem_append, or_imp, forall_and, forall_eq]
      exact ⟨grows.label _ (connect operator left right) onLead,
        leftHypothesis (onBranch onMargin).1 (onBranch onMargin).2,
        rightHypothesis (onCorner onMargin).1 (onCorner onMargin).2⟩
  | compare operator left right leftHypothesis rightHypothesis =>
      simp only [lines, List.mem_cons, List.mem_append, or_imp, forall_and, forall_eq]
      exact ⟨grows.label _ (compare operator left right) onLead,
        leftHypothesis (onBranch onMargin).1 (onBranch onMargin).2,
        rightHypothesis (onCorner onMargin).1 (onCorner onMargin).2⟩
  | choose condition consequent alternative testHypothesis thenHypothesis elseHypothesis =>
      simp only [lines, List.mem_cons, List.mem_append, or_imp, forall_and, forall_eq]
      exact ⟨grows.label _ _ onLead,
        ⟨testHypothesis (onBranch onMargin).1 (onBranch onMargin).2,
          thenHypothesis (onBranch onMargin).1 (onBranch onMargin).2⟩,
        elseHypothesis (onCorner onMargin).1 (onCorner onMargin).2⟩

theorem grows_common (common : List Char) : Grows Foreign (common <+: ·) where
  connector _ piece _ begins := begins.trans (List.prefix_append _ piece)
  label _ _ begins := begins.trans (List.prefix_append _ _)
  index start number begins := by
    rw [List.append_assoc, List.append_assoc]
    exact begins.trans (List.prefix_append start _)

/-- Below its first line a node keeps to its margin. -/
theorem margin_of_mem_tail {tree : Tree Foreign} {lead margin : List Char} :
    ∀ line ∈ (tree.lines lead margin).tail, margin <+: line := by
  have below : ∀ {child : Tree Foreign} (connector continuation : List Char),
      ∀ line ∈ child.lines (margin ++ connector) (margin ++ continuation), margin <+: line :=
    fun connector continuation =>
      (grows_common margin).forall_mem_lines (List.prefix_append _ connector)
        (List.prefix_append _ continuation)
  cases tree with
  | null | foreign => simp [lines]
  | slot index => simp [lines, List.append_assoc]
  | connect operator left right | compare operator left right =>
      simp only [lines, List.tail_cons, List.mem_append, or_imp, forall_and]
      exact ⟨below _ _, below _ _⟩
  | choose condition consequent alternative =>
      simp only [lines, List.tail_cons, List.mem_append, or_imp, forall_and]
      exact ⟨⟨below _ _, below _ _⟩, below _ _⟩

/-- What a drawing shows of a node: its label, and the index of a slot. -/
def shown (node : Tree Foreign) : List (List Char) :=
  node.label.toList ::
    (node.index?.map fun index => ['\x60'] ++ writeInteger index ++ ['\x60']).toList

theorem shown_of_inner {node : Tree Foreign} (unindexed : node.index? = none) :
    node.preorder.flatMap shown =
      node.label.toList :: (node.children.flatMap preorder).flatMap shown := by
  rw [preorder_eq, List.flatMap_cons, shown, unindexed]
  rfl

/-- The lines of a drawing end with what is shown of the nodes, in the order of the walk. -/
theorem lines_end (tree : Tree Foreign) (lead margin : List Char) :
    List.Forall₂ (· <:+ ·) (tree.preorder.flatMap shown) (tree.lines lead margin) := by
  have append : ∀ {pieces others : List (List Char)} {lines more : List (List Char)},
      List.Forall₂ (· <:+ ·) pieces lines → List.Forall₂ (· <:+ ·) others more →
        List.Forall₂ (· <:+ ·) (pieces ++ others) (lines ++ more) := fun first second =>
    List.rel_append first second
  induction tree generalizing lead margin with
  | null | foreign =>
      rw [shown_of_inner rfl]
      exact .cons (List.suffix_append ..) .nil
  | slot index =>
      rw [preorder_eq]
      refine .cons (List.suffix_append ..) (.cons ?_ .nil)
      exact ⟨margin ++ corner, by simp [List.append_assoc]⟩
  | connect operator left right leftHypothesis rightHypothesis
  | compare operator left right leftHypothesis rightHypothesis =>
      rw [shown_of_inner rfl, lines]
      refine .cons (List.suffix_append ..) ?_
      simp only [children, List.flatMap_cons, List.flatMap_nil, List.append_nil,
        List.flatMap_append]
      exact append (leftHypothesis _ _) (rightHypothesis _ _)
  | choose condition consequent alternative testHypothesis thenHypothesis elseHypothesis =>
      rw [shown_of_inner rfl, lines]
      refine .cons (List.suffix_append ..) ?_
      simp only [children, List.flatMap_cons, List.flatMap_nil, List.append_nil,
        List.flatMap_append, List.append_assoc]
      exact append (testHypothesis _ _) (append (thenHypothesis _ _) (elseHypothesis _ _))

/-! ## The lines of siblings -/

/-- Blocks of lines that go on with lines of one class end at the first line that is not of
this class. -/
theorem block_unique {inside : List Char → Bool} {block block' rest rest' : List (List Char)}
    (some : block ≠ []) (some' : block' ≠ []) (within : ∀ line ∈ block.tail, inside line = true)
    (within' : ∀ line ∈ block'.tail, inside line = true)
    (stops : ∀ line ∈ rest.head?, inside line = false)
    (stops' : ∀ line ∈ rest'.head?, inside line = false)
    (same : block ++ rest = block' ++ rest') : block = block' ∧ rest = rest' := by
  have ended : ∀ lines more : List (List Char), (∀ line ∈ lines, inside line = true) →
      (∀ line ∈ more.head?, inside line = false) →
      (lines ++ more).takeWhile inside = lines ∧ (lines ++ more).dropWhile inside = more := by
    intro lines more within stops
    rw [List.takeWhile_append_of_pos within, List.dropWhile_append_of_pos within,
      takeWhile_of_head? stops, dropWhile_of_head? stops, List.append_nil]
    exact ⟨rfl, rfl⟩
  obtain ⟨first, later, rfl⟩ := List.exists_cons_of_ne_nil some
  obtain ⟨first', later', rfl⟩ := List.exists_cons_of_ne_nil some'
  obtain ⟨sameFirst, sameLater⟩ := List.cons.inj same
  obtain ⟨taken, dropped⟩ := ended later rest within stops
  obtain ⟨taken', dropped'⟩ := ended later' rest' within' stops'
  rw [show later ++ rest = later' ++ rest' from sameLater] at taken dropped
  rw [sameFirst, ← taken, taken', ← dropped, dropped']
  exact ⟨rfl, rfl⟩

/-- The line of a later sibling, behind a branch or a corner, is below no trunk. -/
theorem trunk_stops (tree : Tree Foreign) {margin connector continuation : List Char}
    (connects : connector = branch ∨ connector = corner) (rest : List (List Char)) :
    ∀ line ∈ (tree.lines (margin ++ connector) continuation ++ rest).head?,
      (margin ++ trunk).isPrefixOf line = false := by
  rw [List.head?_append_of_ne_nil _ (lines_ne_nil _ _ _), head?_lines]
  intro line member
  cases member
  rw [Bool.eq_false_iff, ne_eq, List.isPrefixOf_iff_prefix, List.append_assoc,
    List.prefix_append_right_inj]
  rcases connects with rfl | rfl <;> simp [trunk, branch, corner]

/-- Of siblings that are drawn alike, the first are drawn alike, and so are the others. -/
theorem siblings_unique {first second : Tree Foreign} {margin : List Char}
    {rest rest' : List (List Char)}
    (stops : ∀ line ∈ rest.head?, (margin ++ trunk).isPrefixOf line = false)
    (stops' : ∀ line ∈ rest'.head?, (margin ++ trunk).isPrefixOf line = false)
    (same : first.lines (margin ++ branch) (margin ++ trunk) ++ rest =
      second.lines (margin ++ branch) (margin ++ trunk) ++ rest') :
    first.lines (margin ++ branch) (margin ++ trunk) =
      second.lines (margin ++ branch) (margin ++ trunk) ∧ rest = rest' := by
  have within : ∀ tree : Tree Foreign, ∀ line ∈
      (tree.lines (margin ++ branch) (margin ++ trunk)).tail,
      (margin ++ trunk).isPrefixOf line = true := fun tree line member =>
    List.isPrefixOf_iff_prefix.mpr (margin_of_mem_tail line member)
  exact block_unique (lines_ne_nil _ _ _) (lines_ne_nil _ _ _) (within first) (within second) stops
    stops' same

/-- Two operands that are drawn below one margin are told apart. -/
theorem operands_unique {left right left' right' : Tree Foreign} {margin : List Char}
    (same : left.lines (margin ++ branch) (margin ++ trunk) ++
        right.lines (margin ++ corner) (margin ++ gap) =
      left'.lines (margin ++ branch) (margin ++ trunk) ++
        right'.lines (margin ++ corner) (margin ++ gap)) :
    left.lines (margin ++ branch) (margin ++ trunk) =
        left'.lines (margin ++ branch) (margin ++ trunk) ∧
      right.lines (margin ++ corner) (margin ++ gap) =
        right'.lines (margin ++ corner) (margin ++ gap) := by
  have stops : ∀ tree : Tree Foreign, ∀ line ∈
      (tree.lines (margin ++ corner) (margin ++ gap)).head?,
      (margin ++ trunk).isPrefixOf line = false := by
    intro tree
    rw [← List.append_nil (tree.lines (margin ++ corner) (margin ++ gap))]
    exact trunk_stops tree (.inr rfl) []
  exact siblings_unique (stops right) (stops right') same

/-! ## Trees with one drawing -/

theorem lines_injective {first second : Expr} {lead margin : List Char}
    (same : first.lines lead margin = second.lines lead margin) : first = second := by
  have labels : ∀ {first second : Expr} {lead margin : List Char},
      first.lines lead margin = second.lines lead margin → first.crown = second.crown := by
    intro first second lead margin same
    have heads := congrArg List.head? same
    rw [head?_lines, head?_lines, Option.some.injEq, List.append_cancel_left_eq,
      String.toList_inj] at heads
    exact crown_of_label heads
  induction first generalizing second lead margin with
  | null =>
      cases second with
      | null => rfl
      | slot | connect | compare | choose => cases labels same
      | foreign leaf => exact leaf.elim
  | slot index =>
      cases second with
      | slot other =>
          simp only [lines, List.cons.injEq, List.append_assoc, List.append_cancel_left_eq,
            List.append_cancel_right_eq, and_true] at same
          rw [writeInteger_injective same.2]
      | null | connect | compare | choose => cases labels same
      | foreign leaf => exact leaf.elim
  | connect operator left right leftHypothesis rightHypothesis =>
      cases second with
      | connect other left' right' =>
          cases labels same
          obtain ⟨sameLeft, sameRight⟩ := operands_unique (List.cons.inj same).2
          rw [leftHypothesis sameLeft, rightHypothesis sameRight]
      | null | slot | compare | choose => cases labels same
      | foreign leaf => exact leaf.elim
  | compare operator left right leftHypothesis rightHypothesis =>
      cases second with
      | compare other left' right' =>
          cases labels same
          obtain ⟨sameLeft, sameRight⟩ := operands_unique (List.cons.inj same).2
          rw [leftHypothesis sameLeft, rightHypothesis sameRight]
      | null | slot | connect | choose => cases labels same
      | foreign leaf => exact leaf.elim
  | choose condition consequent alternative testHypothesis thenHypothesis elseHypothesis =>
      cases second with
      | choose condition' consequent' alternative' =>
          have below := (List.cons.inj same).2
          rw [List.append_assoc, List.append_assoc] at below
          obtain ⟨sameTest, branches⟩ := siblings_unique (trunk_stops consequent (.inl rfl) _)
            (trunk_stops consequent' (.inl rfl) _) below
          obtain ⟨sameThen, sameElse⟩ := operands_unique branches
          rw [testHypothesis sameTest, thenHypothesis sameThen, elseHypothesis sameElse]
      | null | slot | connect | compare => cases labels same
      | foreign leaf => exact leaf.elim
  | foreign leaf => exact leaf.elim

theorem newline_not_mem_label (expr : Expr) : '\n' ∉ expr.label.toList := by
  have crowns : ∀ crown ∈ crowns, '\n' ∉ crown.label.toList := by
    decide
  have onCrown := crowns _ (crown_mem expr)
  rw [label_crown] at onCrown
  exact onCrown

theorem newline_not_mem_writeInteger (number : Int) : '\n' ∉ writeInteger number := by
  intro member
  rcases List.mem_append.mp member with sign | digit
  · split at sign <;> simp at sign
  · have isDigit := Nat.isDigit_of_mem_toDigits (by decide) (by decide) digit
    revert isDigit
    decide

/-- No line of an expression is broken. -/
theorem grows_unbroken : Grows Empty ('\n' ∉ ·) where
  connector start piece member unbroken := by
    have pieces : ∀ piece ∈ [branch, trunk, corner, gap], '\n' ∉ piece := by
      decide
    simp [unbroken, pieces piece member]
  label start node unbroken := by
    simp [unbroken, newline_not_mem_label node]
  index start number unbroken := by
    simp [unbroken, newline_not_mem_writeInteger number]

theorem drawing_injective {first second : Expr} (same : first.drawing = second.drawing) :
    first = second := by
  have split : ∀ expr : Expr, expr.drawing.splitOn '\n' = expr.lines [] [] := fun expr =>
    List.splitOn_intercalate '\n'
      (grows_unbroken.forall_mem_lines List.not_mem_nil List.not_mem_nil) (lines_ne_nil _ _ _)
  have sameLines : first.lines [] [] = second.lines [] [] := by
    rw [← split, ← split, same]
  exact lines_injective sameLines

/-- Two expressions have one drawing exactly if they are one tree. This is so of the drawing
with every index written, and two expressions are drawn alike exactly if they are one tree
with no index beyond the limit of digits. -/
theorem drawing_eq_iff (first second : Expr) :
    (first.drawing = second.drawing ↔ first = second) ∧
    ((∃ text, first.draw = .ok text ∧ second.draw = .ok text) ↔
      first = second ∧ ∀ index ∈ first.slots, index.natAbs < 10 ^ digitLimit) := by
  rw [← firstOverlong?_eq_none_iff]
  refine ⟨⟨drawing_injective, congrArg drawing⟩, ?_, ?_⟩
  · rintro ⟨text, drawn, drawn'⟩
    have same := (drawing_of_draw drawn).symm.trans (drawing_of_draw drawn')
    refine ⟨drawing_injective same, ?_⟩
    rw [← draw_fault, drawn]
    rfl
  · rintro ⟨rfl, short⟩
    exact ⟨first.drawing, draw_eq short, draw_eq short⟩

end Tree
end SlotLogic
