import SlotLogic.Proofs.Rule.Answer

/-!
Contract: every rule answers for the phrase of its name.

Owns: the induction over the nesting of conditions and of if-expressions, and the
answer of each rule.

`condition_induction` and `ifExpression_induction` say once that a bound on the
depth of the nesting is never met: what holds of one level above a nested rule, if
it holds of the nested rule wherever less of the text is left, holds of all levels.

Does not own: the token list of a text.
-/

set_option autoImplicit false

namespace SlotLogic

open SlotLogic.Text Demand

variable {cursor : Cursor}

/-! ## Values and comparisons -/

theorem answers_value (valid : cursor.Valid) :
    Answers Phrase.value.demands Phrase.value.Derives cursor (Rule.value cursor) := by
  apply answers_still valid rfl
  apply answers_restoring valid
  apply answers_takeToken valid (by simp [Phrase.demands])
  intro token taken
  by_cases isValue : token.kind.isValue = true
  · refine .inl ⟨[], by simp [Phrase.demands, isValue], ?_⟩
    simp only [Kind.isValue, Bool.or_eq_true, beq_iff_eq] at isValue
    rcases isValue with kind | kind
    · simp only [kind]
      exact answers_pure (.null kind)
    · simp only [kind]
      exact answers_pure (.numeral (by simp [Token.index?, kind]))
  · refine .inr ⟨.operand, by simp [Phrase.demands, isValue], ?_⟩
    simp only [Kind.isValue, Bool.or_eq_true, beq_iff_eq, not_or] at isValue
    split
    · rename_i kind
      exact absurd kind isValue.1
    · rename_i kind
      exact absurd kind isValue.2
    · rfl

theorem answers_comparison (valid : cursor.Valid) :
    Answers Phrase.comparison.demands Phrase.comparison.Derives cursor
      (Rule.comparison cursor) := by
  apply answers_still valid rfl
  apply answers_followedBy valid
  apply Answers.bind [.operand] _ valid (answers_value valid)
  intro leftTokens left middle readsLeft derivesLeft
  have middleValid := (readsLeft.leads valid).valid
  apply answers_takeToken middleValid (by simp)
  intro token taken
  cases writes : token.kind.comparison? with
  | none => exact .inr ⟨.comparisonOperator, by simp [writes], rfl⟩
  | some operator =>
      refine .inl ⟨[.operand], by simp [writes], ?_⟩
      have valueAnswers := answers_value (Cursor.next_leads middleValid).valid
      apply Answers.bind [.operand] []
        (Cursor.next_leads middleValid).valid valueAnswers
      intro rightTokens right finish _ derivesRight
      apply answers_pure
      rw [List.append_nil]
      exact .comparison derivesLeft (Phrase.kind_of_comparison? writes) derivesRight

/-! ## Nested rules -/

/-- A rule that is defined over itself, with fewer levels below, may be treated as if
the levels never ran out: with nothing left of the text no level is asked. -/
theorem depth_induction (level : Rule Expr → Rule Expr) (base : Rule Expr)
    (within : Nat → Cursor → Reply Expr) {motive : Cursor → Reply Expr → Prop}
    (zero : ∀ cursor, within 0 cursor = level base cursor)
    (succ : ∀ depth cursor, within (depth + 1) cursor = level (within depth) cursor)
    (step : ∀ (nested : Rule Expr) (cursor : Cursor), cursor.Valid →
      (∀ later : Cursor, later.Valid → later.remaining.length < cursor.remaining.length →
        motive later (nested later)) → motive cursor (level nested cursor))
    (valid : cursor.Valid) : motive cursor (within cursor.remaining.length cursor) := by
  -- The depth bounds what is left of the text, and every nested rule starts with less.
  have enough : ∀ (depth : Nat) (cursor : Cursor), cursor.Valid →
      cursor.remaining.length ≤ depth → motive cursor (within depth cursor) := by
    intro depth
    induction depth with
    | zero =>
        intro cursor valid bound
        rw [zero]
        apply step _ cursor valid
        intro later _ shorter
        omega
    | succ depth inductionHypothesis =>
        intro cursor valid bound
        rw [succ]
        apply step _ cursor valid
        intro later laterValid shorter
        exact inductionHypothesis later laterValid (by omega)
  exact enough _ cursor valid (Nat.le_refl _)

/-- A nested rule answers for its phrase wherever less of the text is left. -/
def AnswersInside (phrase : Phrase) (nested : Rule Expr) (cursor : Cursor) : Prop :=
  ∀ later : Cursor, later.Valid → later.remaining.length < cursor.remaining.length →
    Answers phrase.demands phrase.Derives later (nested later)

theorem AnswersInside.later {phrase : Phrase} {nested : Rule Expr} {later : Cursor}
    (inside : AnswersInside phrase nested cursor) (leads : cursor.Leads later) :
    AnswersInside phrase nested later := by
  intro further valid shorter
  have less := leads.remaining_le
  exact inside further valid (by omega)

theorem Kind.isFinal_of_isValue {kind : Kind} (isValue : kind.isValue = true) :
    kind.isFinal = false := by
  simp only [Kind.isValue, Bool.or_eq_true, beq_iff_eq] at isValue
  rcases isValue with rfl | rfl <;> rfl

/-! ## Alternatives -/

theorem single_reaction {demand : Demand} {kind : Kind} {later : List Demand}
    (taken : demand.react kind = .taken later) : reactAll [demand] kind = .taken later := by
  rw [reactAll, taken]
  simp

/-- A demand that is met by a value first or by a word first is a choice of the two. -/
theorem choice_of_value_or_word (wanted : Wanted) {merge : Failure → Failure → Failure}
    {demand : Demand} {lower lower' : List Demand} {word : Kind}
    (value : ∀ kind : Kind, kind.isValue = true → demand.react kind = .taken lower)
    (wordTaken : demand.react word = .taken lower')
    (other : ∀ kind : Kind, kind.isValue = false → kind ≠ word →
      demand.react kind = .refused wanted)
    (wordPasses : word.isFinal = false) (wordApart : word.isValue = false)
    (both : ∀ found, merge ⟨.operand, found⟩ ⟨.token word, found⟩ = ⟨wanted, found⟩)
    (second : ∀ first second : Failure, first.position < second.position →
      merge first second = second)
    (first : lower ≠ [] → ∀ first second : Failure, second.position < first.position →
      merge first second = first) :
    Choice merge [demand] (.operand :: lower) (.token word :: lower') where
  unmet := List.cons_ne_nil demand []
  covers := by
    intro kind fits
    by_cases isValue : kind.isValue = true
    · simp [single_reaction (value kind isValue), isValue]
    · exact absurd (by simp [isValue]) (fits .operand)
  covers' := by
    intro kind fits
    by_cases isWord : kind = word
    · rw [isWord]
      simp [single_reaction wordTaken]
    · exact absurd (by simp [isWord]) (fits (.token word))
  passes := by
    intro kind later taken
    by_cases isValue : kind.isValue = true
    · exact Kind.isFinal_of_isValue isValue
    · simp [isValue] at taken
  passes' := by
    intro kind later taken
    by_cases isWord : kind = word
    · rw [isWord]
      exact wordPasses
    · simp [isWord] at taken
  apart := by
    intro kind later later' taken taken'
    by_cases isWord : kind = word
    · simp [isWord, wordApart] at taken
    · simp [isWord] at taken'
  both := by
    intro found wanted₁ wanted₂ refused refused'
    by_cases isValue : found.kind.isValue = true
    · simp [isValue] at refused
    · by_cases isWord : found.kind = word
      · simp [isWord] at refused'
      · have notValue : found.kind.isValue = false := by simpa using isValue
        simp [notValue] at refused
        simp [isWord] at refused'
        refine ⟨wanted, ?_, by rw [reactAll, other found.kind notValue isWord]⟩
        rw [← refused, ← refused']
        exact both found
  second := second
  first := by
    intro kind later taken unfinished
    apply first
    rintro rfl
    by_cases isValue : kind.isValue = true
    · simp [isValue] at taken
      exact unfinished taken
    · simp [isValue] at taken

/-- Of a comparison and a condition in parentheses the failure further in the text
counts, and the missing parenthesis where neither got anywhere. -/
theorem conjunctionChoice :
    Choice Failure.further Phrase.conjunction.demands Phrase.comparison.demands
      (.token .openParen :: (Phrase.condition.demands ++ [.token .closeParen])) := by
  apply choice_of_value_or_word (.token .openParen)
  · intro kind isValue
    simp [react, isValue]
  · rfl
  · intro kind isValue isWord
    simp [react, isValue, isWord]
  · rfl
  · rfl
  · intro found
    simp [Failure.further, Failure.position]
  · intro first second further
    unfold Failure.further
    rw [if_neg (by omega)]
  · intro _ first second further
    unfold Failure.further
    rw [if_pos further]

/-- Of a value and a nested if-expression the second counts if it got anywhere. -/
theorem branchChoice :
    Choice Failure.ofBranch Phrase.expression.demands Phrase.value.demands
      Phrase.ifExpression.demands := by
  apply choice_of_value_or_word .branch
  · intro kind isValue
    simp [react, isValue]
  · rfl
  · intro kind isValue isWord
    simp [react, isValue, isWord]
  · rfl
  · rfl
  · intro found
    simp [Failure.ofBranch, Failure.position]
  · intro first second further
    unfold Failure.ofBranch
    rw [if_pos further]
  · intro unfinished
    exact absurd rfl unfinished

/-! ## Conditions -/

theorem answers_conjunctionOver {nested : Rule Expr} (valid : cursor.Valid)
    (inside : AnswersInside .condition nested cursor) :
    Answers Phrase.conjunction.demands Phrase.conjunction.Derives cursor
      (Rule.conjunctionOver nested cursor) := by
  apply answers_still valid rfl
  apply answers_either valid conjunctionChoice
  · exact (answers_comparison valid).imp fun _ _ derives => .compared derives
  · apply Answers.bind _ _ valid (answers_consume .openParen valid)
    rintro _ _ afterOpen readsOpen ⟨opening, rfl, openKind⟩
    have openValid := (readsOpen.leads valid).valid
    have shorter := readsOpen.one_remaining_lt valid (by rw [openKind]; rfl)
    apply Answers.bind _ _ openValid (inside afterOpen openValid shorter)
    intro tokens expr afterInner readsInner derives
    have innerValid := (readsInner.leads openValid).valid
    apply Answers.bind _ [] innerValid (answers_consume .closeParen innerValid)
    rintro _ _ afterClose readsClose ⟨closing, rfl, closeKind⟩
    apply answers_pure
    exact .enclosed openKind derives closeKind

theorem answers_disjunctionOver {nested : Rule Expr} (valid : cursor.Valid)
    (inside : AnswersInside .condition nested cursor) :
    Answers Phrase.disjunction.demands Phrase.disjunction.Derives cursor
      (Rule.disjunctionOver nested cursor) := by
  apply answers_still valid rfl
  apply answers_chain .and valid
  intro later leads
  exact answers_conjunctionOver leads.valid (inside.later leads)

theorem answers_conditionOver {nested : Rule Expr} (valid : cursor.Valid)
    (inside : AnswersInside .condition nested cursor) :
    Answers Phrase.condition.demands Phrase.condition.Derives cursor
      (Rule.conditionOver nested cursor) := by
  apply answers_still valid rfl
  apply answers_chain .or valid
  intro later leads
  exact answers_disjunctionOver leads.valid (inside.later leads)

/-- What holds of one level of a condition holds of a whole condition. -/
theorem condition_induction {motive : Cursor → Reply Expr → Prop}
    (level : ∀ (nested : Rule Expr) (cursor : Cursor), cursor.Valid →
      (∀ later : Cursor, later.Valid → later.remaining.length < cursor.remaining.length →
        motive later (nested later)) → motive cursor (Rule.conditionOver nested cursor))
    (valid : cursor.Valid) : motive cursor (Rule.condition cursor) :=
  depth_induction Rule.conditionOver Rule.comparison Rule.conditionWithin (fun _ => rfl)
    (fun _ _ => rfl) level valid

theorem answers_condition (valid : cursor.Valid) :
    Answers Phrase.condition.demands Phrase.condition.Derives cursor (Rule.condition cursor) :=
  condition_induction (motive := fun cursor reply =>
    Answers Phrase.condition.demands Phrase.condition.Derives cursor reply)
    (fun _ _ valid inside => answers_conditionOver valid inside) valid

/-! ## If-expressions -/

theorem answers_expressionOver {nested : Rule Expr} (valid : cursor.Valid)
    (inner : Answers Phrase.ifExpression.demands Phrase.ifExpression.Derives cursor
      (nested cursor)) :
    Answers Phrase.expression.demands Phrase.expression.Derives cursor
      (Rule.expressionOver nested cursor) := by
  apply answers_still valid rfl
  apply answers_either valid branchChoice
  · exact (answers_value valid).imp fun _ _ derives => .plain derives
  · exact inner.imp fun _ _ derives => .nested derives

theorem answers_ifExpressionOver {nested : Rule Expr} (valid : cursor.Valid)
    (inside : AnswersInside .ifExpression nested cursor) :
    Answers Phrase.ifExpression.demands Phrase.ifExpression.Derives cursor
      (Rule.ifExpressionOver nested cursor) := by
  apply answers_still valid rfl
  apply answers_restoring valid
  apply Answers.bind [.token .ifWord] ifDemands valid
    (answers_consume .ifWord valid)
  rintro _ _ afterWord readsWord ⟨word, rfl, wordKind⟩
  have wordLeads := readsWord.leads valid
  have shorter := readsWord.one_remaining_lt valid (by rw [wordKind]; rfl)
  have inner : ∀ later : Cursor, afterWord.Leads later →
      Answers Phrase.ifExpression.demands Phrase.ifExpression.Derives later (nested later) := by
    intro later leads
    have less := leads.remaining_le
    exact inside later leads.valid (by omega)
  apply Answers.bind [.token .openParen] _ wordLeads.valid
    (answers_consume .openParen wordLeads.valid)
  rintro _ _ afterOpen readsOpen ⟨opening, rfl, openKind⟩
  have openLeads := readsOpen.leads wordLeads.valid
  apply Answers.bind Phrase.condition.demands _ openLeads.valid
    (answers_condition openLeads.valid)
  intro testTokens test afterTest readsTest testDerives
  have testLeads := openLeads.trans (readsTest.leads openLeads.valid)
  apply Answers.bind [.token .semicolon] _ testLeads.valid
    (answers_consume .semicolon testLeads.valid)
  rintro _ _ afterFirst readsFirst ⟨first, rfl, firstKind⟩
  have firstLeads := testLeads.trans (readsFirst.leads testLeads.valid)
  apply Answers.bind Phrase.expression.demands _ firstLeads.valid
    (answers_expressionOver firstLeads.valid (inner afterFirst firstLeads))
  intro thenTokens consequent afterThen readsThen thenDerives
  have thenLeads := firstLeads.trans (readsThen.leads firstLeads.valid)
  apply Answers.bind [.token .semicolon] _ thenLeads.valid
    (answers_consume .semicolon thenLeads.valid)
  rintro _ _ afterSecond readsSecond ⟨second, rfl, secondKind⟩
  have secondLeads := thenLeads.trans (readsSecond.leads thenLeads.valid)
  apply Answers.bind Phrase.expression.demands _ secondLeads.valid
    (answers_expressionOver secondLeads.valid (inner afterSecond secondLeads))
  intro elseTokens alternative afterElse readsElse elseDerives
  have elseLeads := secondLeads.trans (readsElse.leads secondLeads.valid)
  apply Answers.bind [.token .closeParen] [] elseLeads.valid
    (answers_consume .closeParen elseLeads.valid)
  rintro _ _ afterClose readsClose ⟨closing, rfl, closeKind⟩
  apply answers_pure
  exact .ifExpression wordKind openKind testDerives firstKind thenDerives secondKind elseDerives
    closeKind

/-- What holds of one level of an if-expression holds of a whole if-expression. -/
theorem ifExpression_induction {motive : Cursor → Reply Expr → Prop}
    (level : ∀ (nested : Rule Expr) (cursor : Cursor), cursor.Valid →
      (∀ later : Cursor, later.Valid → later.remaining.length < cursor.remaining.length →
        motive later (nested later)) → motive cursor (Rule.ifExpressionOver nested cursor))
    (valid : cursor.Valid) : motive cursor (Rule.ifExpression cursor) :=
  depth_induction Rule.ifExpressionOver Rule.value Rule.ifExpressionWithin (fun _ => rfl)
    (fun _ _ => rfl) level valid

theorem answers_ifExpression (valid : cursor.Valid) :
    Answers Phrase.ifExpression.demands Phrase.ifExpression.Derives cursor
      (Rule.ifExpression cursor) :=
  ifExpression_induction (motive := fun cursor reply =>
    Answers Phrase.ifExpression.demands Phrase.ifExpression.Derives cursor reply)
    (fun _ _ valid inside => answers_ifExpressionOver valid inside) valid

/-! ## Statements -/

/-- A lenient statement leaves open what follows the if-expression. -/
theorem answers_lenientStatement (valid : cursor.Valid) :
    Answers Phrase.ifExpression.demands Phrase.ifExpression.Derives cursor
      (Rule.statement true cursor) := by
  apply answers_still valid rfl
  apply answers_followedBy valid
  apply Answers.bind _ [] valid (answers_ifExpression valid)
  intro tokens expr later _ derives
  apply answers_pure
  rw [List.append_nil]
  exact derives

/-- The tokens of a text that is a statement and nothing more. -/
def WholeStatement (tokens : List Token) (expr : Expr) : Prop :=
  ∃ body final, tokens = body ++ [final] ∧ final.kind = .endOfText ∧
    Phrase.ifExpression.Derives body expr

theorem WholeStatement.runs {tokens : List Token} {expr : Expr}
    (whole : WholeStatement tokens expr) :
    run Phrase.textDemands (tokens.map Token.kind) = some [] := by
  obtain ⟨body, final, rfl, ends, derives⟩ := whole
  exact (Phrase.Derives.statement derives).runs_text ends

theorem answers_strictStatement (valid : cursor.Valid) :
    Answers Phrase.textDemands WholeStatement cursor (Rule.statement false cursor) := by
  apply answers_still valid rfl
  apply answers_followedBy valid
  apply Answers.bind _ _ valid (answers_ifExpression valid)
  intro body expr later reads derives
  have laterValid := (reads.leads valid).valid
  apply answers_takeToken laterValid (by simp)
  intro token taken
  by_cases ends : token.kind = .endOfText
  · refine .inl ⟨[], by simp [reactAll, react, ends], ?_⟩
    rw [if_pos ends]
    exact answers_pure ⟨body, token, rfl, ends, derives⟩
  · refine .inr ⟨.endOfText, by simp [reactAll, react, ends], ?_⟩
    exact if_neg ends

end SlotLogic
