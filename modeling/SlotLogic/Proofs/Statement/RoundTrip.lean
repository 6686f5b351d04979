import SlotLogic.Proofs.Statement.Acceptance
import SlotLogic.Proofs.Token.Writing
import SlotLogic.Proofs.Tree.Fault

/-!
Contract: the canonical text of a tree is read back as this tree exactly if the tree
is a statement tree.

Owns: the text of an expression with every index written, the expressions that have it
as their canonical text, the phrases that canonical texts are read as, level by level, and
the round trip.

The text of a condition is read as the phrase of its own level: a comparison, or a
chain of its connective. An operand of a connective is read as what its side of the
chain takes, because it is enclosed exactly where its own level is not taken there.

Does not own: the texts of trees that no statement has.
-/

set_option autoImplicit false

namespace SlotLogic

open SlotLogic.Text

/-! ## Texts of expressions -/

namespace Expr

variable {left right : Expr}

/-- The canonical text of an expression with every index written, whatever its length. -/
def text : Expr → List Char
  | .null => ['n', 'u', 'l', 'l']
  | .slot index => writeInteger index
  | .connect operator left right =>
    Tree.enclose (left.isEnclosed operator .left) (text left) ++ (operator.spelling ++
      Tree.enclose (right.isEnclosed operator .right) (text right))
  | .compare operator left right => text left ++ (operator.spelling ++ text right)
  | .choose test consequent alternative =>
    ['i', 'f'] ++ (['('] ++ (text test ++ ([';'] ++ (text consequent ++
      ([';'] ++ (text alternative ++ [')']))))))
  | .foreign leaf => leaf.elim

/-- An expression that has a canonical text has this one. -/
theorem text_of_source {expr : Expr} {text : List Char} (written : expr.source = .ok text) :
    text = expr.text := by
  induction expr generalizing text with
  | null =>
      cases written
      rfl
  | slot index =>
      rw [Tree.source] at written
      cases printed : printInteger index with
      | error fault =>
          rw [printed] at written
          cases written
      | ok digits =>
          rw [printed] at written
          cases written
          exact writeInteger_of_print printed
  | connect operator left right leftHypothesis rightHypothesis
  | compare operator left right leftHypothesis rightHypothesis =>
      obtain ⟨leftText, rightText, first, second, rfl⟩ := ok_two written
      rw [leftHypothesis first, rightHypothesis second, Expr.text, List.append_assoc]
  | choose test consequent alternative testHypothesis thenHypothesis elseHypothesis =>
      obtain ⟨testText, thenText, elseText, first, second, third, rfl⟩ := ok_three written
      rw [testHypothesis first, thenHypothesis second, elseHypothesis third, Expr.text]
      simp
  | foreign leaf => exact leaf.elim

/-- An expression has a canonical text where each of its indices can be written. -/
theorem source_eq {expr : Expr} (short : expr.firstOverlong? = none) :
    expr.source = .ok expr.text := by
  have writable : faultOf? expr.source = none := by
    rw [Tree.source_fault, Tree.firstUnwritable?_of_short short, Tree.firstForeign?_expr]
    rfl
  obtain ⟨text, written⟩ := ok_of_faultOf? writable
  rw [written, text_of_source written]

/-- No index of a statement tree is beyond the limit of digits. -/
theorem natAbs_lt_of_isStatement {expr : Expr} (isStatement : expr.isStatement = true) :
    ∀ index ∈ expr.slots, index.natAbs < 10 ^ digitLimit := by
  have inRange := Tree.everySlot_of_isBranch (Bool.or_eq_true_iff.mpr (.inr isStatement))
  intro index member
  have range := Tree.everySlot_iff.mp inRange index member
  exact natAbs_lt_of_le (by omega) range.2

theorem source_of_isStatement {expr : Expr} (isStatement : expr.isStatement = true) :
    expr.source = .ok expr.text :=
  source_eq (Tree.firstOverlong?_eq_none_iff.mpr (natAbs_lt_of_isStatement isStatement))

/-- The text of an operand starts with no sign of a comparison. -/
theorem text_operand_start {expr : Expr} (operand : expr.isOperand = true) :
    ∃ c rest, expr.text = c :: rest ∧ c ≠ '=' ∧ c ≠ '>' := by
  cases expr with
  | null => exact ⟨_, _, rfl, by decide, by decide⟩
  | slot index =>
      obtain ⟨positive, -⟩ := (Tree.isOperand_slot index).mp operand
      obtain ⟨c, rest, digits, leading⟩ := toDigits_leading index.natAbs (by omega)
      refine ⟨c, rest, ?_, ?_, ?_⟩
      · show writeInteger index = c :: rest
        rw [writeInteger, if_neg (by omega), digits]
        rfl
      · rintro rfl
        revert leading
        decide
      · rintro rfl
        revert leading
        decide
  | connect | compare | choose => cases operand
  | foreign leaf => exact leaf.elim

end Expr

/-! ## Characters that write a phrase -/

namespace Phrase

/-- Behind blanks, and in front of anything that is no digit, these characters are
read as a phrase with a tree, and nothing more is read. -/
def Written (phrase : Phrase) (chars : List Char) (expr : Expr) : Prop :=
  ∀ (cursor : Cursor) (rest : List Char), cursor.Faces (chars ++ rest) → EndsNumeral rest →
    ∃ tokens finish, cursor.Reads tokens finish ∧ phrase.Derives tokens expr ∧
      finish.remaining = rest

theorem Written.imp {phrase : Phrase} {chars : List Char} {expr : Expr}
    (written : phrase.Written chars expr) (phrase' : Phrase)
    (wider : ∀ tokens, phrase.Derives tokens expr → phrase'.Derives tokens expr) :
    phrase'.Written chars expr := by
  intro cursor rest faces ends
  obtain ⟨tokens, finish, reads, derives, stops⟩ := written cursor rest faces ends
  exact ⟨tokens, finish, reads, wider tokens derives, stops⟩

variable {chars chars' : List Char} {left right : Expr}

theorem written_operand {expr : Expr} (operand : expr.isOperand = true) :
    value.Written expr.text expr := by
  intro cursor rest faces ends
  cases expr with
  | null =>
      obtain ⟨token, taken, kind, -, stops⟩ := Cursor.next_of_faces .nullWord faces rfl rfl
      exact ⟨[token], _, .one taken, .null kind, stops⟩
  | slot index =>
      obtain ⟨positive, within⟩ := (Tree.isOperand_slot index).mp operand
      have digits : Expr.text (.slot index) = Nat.toDigits 10 index.natAbs := by
        show writeInteger index = _
        rw [writeInteger, if_neg (by omega)]
        rfl
      rw [digits] at faces
      have scanned := scan_numeral index.natAbs (by omega) (by omega) ends
      obtain ⟨token, taken, kind, text, stops⟩ := Cursor.next_of_faces _ faces scanned rfl
      have names : token.index? = some index.natAbs := by
        rw [Token.index?, if_pos kind, text, numeralValue_toDigits]
      have same : (index.natAbs : Int) = index := by omega
      refine ⟨[token], _, .one taken, ?_, stops⟩
      rw [← same]
      exact .numeral names
  | connect | compare | choose => cases operand
  | foreign leaf => exact leaf.elim

theorem written_compare (operator : Comparison) (leftOperand : left.isOperand = true)
    (rightOperand : right.isOperand = true) :
    comparison.Written (Expr.text (.compare operator left right))
      (.compare operator left right) := by
  intro cursor rest faces ends
  rw [Expr.text, List.append_assoc, List.append_assoc] at faces
  have signs : EndsNumeral (operator.spelling ++ (right.text ++ rest)) := by
    cases operator <;> exact endsNumeral_cons _ (by decide)
  obtain ⟨leftTokens, afterLeft, readsLeft, derivesLeft, remaining⟩ :=
    written_operand leftOperand cursor _ faces signs
  obtain ⟨c, others, start, notEq, notGt⟩ := Expr.text_operand_start rightOperand
  have scanned := scan_comparison operator (others ++ rest) notEq notGt
  rw [← List.cons_append, ← start] at scanned
  obtain ⟨token, taken, kind, -, afterSign⟩ :=
    Cursor.next_of_faces _ (Cursor.faces_of_remaining remaining) scanned operator.isFinal_kind
  obtain ⟨rightTokens, finish, readsRight, derivesRight, stops⟩ :=
    written_operand rightOperand _ _ (Cursor.faces_of_remaining afterSign) ends
  exact ⟨leftTokens ++ token :: rightTokens, finish, readsLeft.append (.cons taken readsRight),
    .comparison derivesLeft kind derivesRight, stops⟩

theorem written_enclosed (inner : condition.Written chars left) :
    conjunction.Written (Tree.enclose true chars) left := by
  intro cursor rest faces ends
  have same : Tree.enclose true chars ++ rest = ['('] ++ (chars ++ ([')'] ++ rest)) := by
    simp [Tree.enclose]
  rw [same] at faces
  obtain ⟨opening, takenOpen, openKind, -, afterOpen⟩ :=
    Cursor.next_of_faces .openParen faces rfl rfl
  obtain ⟨tokens, afterInner, reads, derives, remaining⟩ :=
    inner _ _ (Cursor.faces_of_remaining afterOpen) (endsNumeral_cons _ (by decide))
  obtain ⟨closing, takenClose, closeKind, -, stops⟩ :=
    Cursor.next_of_faces .closeParen (Cursor.faces_of_remaining remaining) rfl rfl
  exact ⟨opening :: (tokens ++ [closing]), _,
    .cons takenOpen (reads.append (.one takenClose)), .enclosed openKind derives closeKind, stops⟩

/-- A connective is a word between two blanks. -/
theorem spelling_eq (operator : Connective) :
    ∃ word, operator.spelling = ' ' :: (word ++ [' ']) ∧
      ∀ rest, scan (word ++ rest) = .ok ⟨operator.kind, word⟩ := by
  cases operator with
  | and => exact ⟨['a', 'n', 'd'], rfl, fun _ => rfl⟩
  | or => exact ⟨['o', 'r'], rfl, fun _ => rfl⟩

theorem written_link (operator : Connective) (first : (chain operator).Written chars left)
    (second : operator.operand.Written chars' right) :
    (chain operator).Written (chars ++ (operator.spelling ++ chars'))
      (.connect operator left right) := by
  intro cursor rest faces ends
  obtain ⟨word, spelling, scanned⟩ := spelling_eq operator
  have same : (chars ++ (operator.spelling ++ chars')) ++ rest =
      chars ++ (' ' :: (word ++ (' ' :: (chars' ++ rest)))) := by
    simp [spelling]
  rw [same] at faces
  obtain ⟨leftTokens, afterLeft, readsLeft, derivesLeft, remaining⟩ :=
    first cursor _ faces (endsNumeral_cons _ (by decide))
  obtain ⟨token, taken, kind, -, afterWord⟩ :=
    Cursor.next_of_faces _ (Cursor.faces_of_blank (by decide) remaining) (scanned _)
      operator.isFinal_kind
  obtain ⟨rightTokens, finish, readsRight, derivesRight, stops⟩ :=
    second _ _ (Cursor.faces_of_blank (by decide) afterWord) ends
  exact ⟨leftTokens ++ token :: rightTokens, finish, readsLeft.append (.cons taken readsRight),
    .link derivesLeft kind derivesRight, stops⟩

/-! ### Conditions -/

/-- The phrase that the text of a condition is read as by itself. -/
def level : Expr → Phrase
  | .connect operator _ _ => chain operator
  | _ => comparison

/-- The phrase that is read on a side of a connective. -/
def onSide (parent : Connective) : Tree.Side → Phrase
  | .left => chain parent
  | .right => parent.operand

theorem written_onSide_of_conjunction (parent : Connective) (side : Tree.Side)
    (written : conjunction.Written chars left) : (onSide parent side).Written chars left := by
  have disjunction := written.imp (chain .and) fun _ derives => .single derives
  have condition := disjunction.imp (chain .or) fun _ derives => .single derives
  cases parent <;> cases side
  · exact disjunction
  · exact written
  · exact condition
  · exact disjunction

/-- The text of a condition at its own level is read as a condition. -/
theorem written_condition_of_level {expr : Expr} (isCondition : expr.isCondition = true)
    (written : (level expr).Written expr.text expr) : condition.Written expr.text expr := by
  cases expr with
  | connect operator left right =>
      cases operator with
      | and => exact written.imp _ fun _ derives => .single derives
      | or => exact written
  | compare operator left right =>
      have conjunction := written.imp conjunction fun _ derives => .compared derives
      exact written_onSide_of_conjunction .or .left conjunction
  | null | slot | choose => cases isCondition
  | foreign leaf => exact leaf.elim

/-- An operand of a connective is read as what its side takes: in parentheses where
this is not its own level. -/
theorem written_onSide (parent : Connective) (side : Tree.Side) {expr : Expr}
    (isCondition : expr.isCondition = true) (written : (level expr).Written expr.text expr) :
    (onSide parent side).Written (Tree.enclose (expr.isEnclosed parent side) expr.text) expr := by
  cases enclosed : expr.isEnclosed parent side with
  | true =>
      have condition := written_condition_of_level isCondition written
      exact written_onSide_of_conjunction parent side (written_enclosed condition)
  | false =>
      show (onSide parent side).Written expr.text expr
      cases expr with
      | compare operator left right =>
          have conjunction := written.imp conjunction
            fun _ derives => .compared derives
          exact written_onSide_of_conjunction parent side conjunction
      | connect operator left right =>
          -- Its own level is what the side takes, or the operands of what the side takes.
          cases operator <;> cases parent <;> cases side <;> cases enclosed
          · exact written
          · exact written.imp _ fun _ derives => .single derives
          · exact written
          · exact written
      | null | slot | choose => cases isCondition
      | foreign leaf => exact leaf.elim

theorem written_condition {expr : Expr} (isCondition : expr.isCondition = true) :
    (level expr).Written expr.text expr := by
  induction expr with
  | compare operator left right =>
      obtain ⟨leftOperand, rightOperand⟩ := Bool.and_eq_true_iff.mp isCondition
      exact written_compare operator leftOperand rightOperand
  | connect operator left right leftHypothesis rightHypothesis =>
      obtain ⟨leftCondition, rightCondition⟩ := Bool.and_eq_true_iff.mp isCondition
      have first := written_onSide operator .left leftCondition (leftHypothesis leftCondition)
      have second := written_onSide operator .right rightCondition (rightHypothesis rightCondition)
      rw [Expr.text]
      exact written_link operator first second
  | null | slot | choose => cases isCondition
  | foreign leaf => exact leaf.elim

/-! ### Statements -/

theorem written_ifExpression {test consequent alternative : Expr}
    (testWritten : condition.Written test.text test)
    (thenWritten : expression.Written consequent.text consequent)
    (elseWritten : expression.Written alternative.text alternative) :
    ifExpression.Written (Expr.text (.choose test consequent alternative))
      (.choose test consequent alternative) := by
  intro cursor rest faces ends
  have same : Expr.text (.choose test consequent alternative) ++ rest =
      ['i', 'f'] ++ (['('] ++ (test.text ++ ([';'] ++ (consequent.text ++ ([';'] ++
        (alternative.text ++ ([')'] ++ rest))))))) := by
    rw [Expr.text]
    simp
  rw [same] at faces
  obtain ⟨word, takenWord, wordKind, -, remaining⟩ :=
    Cursor.next_of_faces .ifWord faces rfl rfl
  obtain ⟨opening, takenOpen, openKind, -, remaining⟩ :=
    Cursor.next_of_faces .openParen (Cursor.faces_of_remaining remaining) rfl rfl
  obtain ⟨testTokens, afterTest, readsTest, testDerives, remaining⟩ :=
    testWritten _ _ (Cursor.faces_of_remaining remaining) (endsNumeral_cons _ (by decide))
  obtain ⟨first, takenFirst, firstKind, -, remaining⟩ :=
    Cursor.next_of_faces .semicolon (Cursor.faces_of_remaining remaining) rfl rfl
  obtain ⟨thenTokens, afterThen, readsThen, thenDerives, remaining⟩ :=
    thenWritten _ _ (Cursor.faces_of_remaining remaining) (endsNumeral_cons _ (by decide))
  obtain ⟨second, takenSecond, secondKind, -, remaining⟩ :=
    Cursor.next_of_faces .semicolon (Cursor.faces_of_remaining remaining) rfl rfl
  obtain ⟨elseTokens, afterElse, readsElse, elseDerives, remaining⟩ :=
    elseWritten _ _ (Cursor.faces_of_remaining remaining) (endsNumeral_cons _ (by decide))
  obtain ⟨closing, takenClose, closeKind, -, stops⟩ :=
    Cursor.next_of_faces .closeParen (Cursor.faces_of_remaining remaining) rfl rfl
  refine ⟨word :: opening :: (testTokens ++ first :: (thenTokens ++ second ::
    (elseTokens ++ [closing]))), _, ?_, ?_, stops⟩
  · apply Cursor.Reads.cons takenWord
    apply Cursor.Reads.cons takenOpen
    apply readsTest.append
    apply Cursor.Reads.cons takenFirst
    apply readsThen.append
    apply Cursor.Reads.cons takenSecond
    apply readsElse.append
    exact .one takenClose
  · exact .ifExpression wordKind openKind testDerives firstKind thenDerives secondKind elseDerives
      closeKind

theorem written_branch {expr : Expr} (isBranch : expr.isBranch = true)
    (nested : expr.isStatement = true → ifExpression.Written expr.text expr) :
    expression.Written expr.text expr := by
  rcases Bool.or_eq_true_iff.mp isBranch with operand | statement
  · exact (written_operand operand).imp _ fun _ derives => .plain derives
  · exact (nested statement).imp _ fun _ derives => .nested derives

/-- The text of a statement tree is read as an if-expression. -/
theorem written_statement {expr : Expr} (isStatement : expr.isStatement = true) :
    ifExpression.Written expr.text expr := by
  induction expr with
  | choose test consequent alternative _ thenHypothesis elseHypothesis =>
      obtain ⟨isCondition, thenBranch, elseBranch⟩ :=
        (Tree.isStatement_choose test consequent alternative).mp isStatement
      apply written_ifExpression
      · exact written_condition_of_level isCondition (written_condition isCondition)
      · exact written_branch thenBranch thenHypothesis
      · exact written_branch elseBranch elseHypothesis
  | null | slot | connect | compare => cases isStatement
  | foreign leaf => exact leaf.elim

end Phrase

/-! ## The round trip -/

/-- A statement tree is read back from its text, whether or not input may trail. -/
theorem parse_text {expr : Expr} (lenient : Bool) (isStatement : expr.isStatement = true) :
    parse lenient expr.text = .ok expr := by
  have start : (Cursor.atStart expr.text).remaining = expr.text ++ [] :=
    (List.append_nil expr.text).symm
  obtain ⟨tokens, finish, reads, derives, nothing⟩ :=
    Phrase.written_statement isStatement _ [] (Cursor.faces_of_remaining start) endsNumeral_nil
  have final := Cursor.Reads.one (Cursor.next_of_remaining_nil nothing)
  exact parse_of_reads lenient (reads.append final) rfl derives

/-- A tree has a canonical text that is read back as this tree exactly if it is a statement
tree. Whether indices that are too long are written makes no difference. -/
theorem parse_text_iff_isStatement (lenient : Bool) (expr : Expr) :
    (parse lenient expr.text = .ok expr ↔ expr.isStatement = true) ∧
    ((∃ text, expr.source = .ok text ∧ parse lenient text = .ok expr) ↔
      expr.isStatement = true) := by
  refine ⟨⟨isStatement_of_parse, parse_text lenient⟩, ?_, ?_⟩
  · rintro ⟨text, -, again⟩
    exact isStatement_of_parse again
  · intro isStatement
    exact ⟨expr.text, Expr.source_of_isStatement isStatement, parse_text lenient isStatement⟩

/-- Left of `and` a disjunction is enclosed, and right of `or` too; the nesting of the
tree comes back. -/
example :
    Expr.text (.choose
        (.connect .or (.compare .eq (.slot 1) .null)
          (.connect .or
            (.connect .and (.connect .or (.compare .ne (.slot 2) (.slot 30))
              (.compare .lt .null .null)) (.compare .ge (.slot 4) (.slot 255)))
            (.compare .gt (.slot 5) (.slot 6))))
        .null (.slot 7)) =
      "if(1=null or ((2<>30 or null<null) and 4>=255 or 5>6);null;7)".toList := by
  rfl

end SlotLogic
