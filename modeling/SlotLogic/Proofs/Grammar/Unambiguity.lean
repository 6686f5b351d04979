import SlotLogic.Proofs.Grammar.Demand

/-!
Contract: tokens stand for at most one tree.

Owns: the two places where a phrase could be cut in two ways, and the uniqueness of
the tree of a phrase.

Both cuts are settled by the run of the demands. A phrase before a token that its
tail skips cannot be longer; and the last connective of a chain is the last one
that is not inside an operand.

Does not own: readers.
-/

set_option autoImplicit false

namespace SlotLogic

theorem Comparison.kind_injective {first second : Comparison}
    (same : first.kind = second.kind) : first = second := by
  have written := congrArg Kind.comparison? same
  rw [Phrase.comparison?_kind, Phrase.comparison?_kind] at written
  exact Option.some.inj written

namespace Phrase

open Demand

variable {phrase : Phrase} {tokens others : List Token} {left right : Expr}

/-! ## Where a phrase ends -/

/-- Of two cuts of one list, they are the same or one of them comes first. -/
private theorem cut_cases {first first' rest rest' : List Token} {cut cut' : Token}
    (same : first ++ cut :: rest = first' ++ cut' :: rest') :
    (first = first' ∧ cut = cut' ∧ rest = rest') ∨
    (∃ middle, first' = first ++ cut :: middle ∧ rest = middle ++ cut' :: rest') ∨
    ∃ middle, first = first' ++ cut' :: middle ∧ rest' = middle ++ cut :: rest := by
  rcases List.append_eq_append_iff.mp same with ⟨middle, rfl, tail⟩ | ⟨middle, rfl, tail⟩
  · cases middle with
    | nil =>
        cases tail
        simp
    | cons head middle =>
        cases tail
        exact .inr (.inl ⟨middle, rfl, rfl⟩)
  · cases middle with
    | nil =>
        cases tail
        simp
    | cons head middle =>
        cases tail
        exact .inr (.inr ⟨middle, rfl, rfl⟩)

/-- A phrase that is longer than another goes on with a token that the tail does not
skip. -/
theorem Derives.tail_takes {token : Token} {more : List Token}
    (shorter : phrase.Derives tokens left) (longer : phrase.Derives (tokens ++ token :: more) right) :
    reactAll phrase.tail token.kind ≠ .skipped := by
  intro skipped
  have runs := longer.runs
  rw [List.map_append, run_append, shorter.runs] at runs
  simp [run, skipped] at runs

/-- A phrase before a token that its tail skips is cut off in one way. -/
theorem Derives.cut_unique {token token' : Token} {rest rest' : List Token}
    (first : phrase.Derives tokens left) (second : phrase.Derives others right)
    (skipped : reactAll phrase.tail token.kind = .skipped)
    (skipped' : reactAll phrase.tail token'.kind = .skipped)
    (same : tokens ++ token :: rest = others ++ token' :: rest') :
    tokens = others ∧ token = token' ∧ rest = rest' := by
  rcases cut_cases same with one | ⟨middle, rfl, -⟩ | ⟨middle, rfl, -⟩
  · exact one
  · exact absurd skipped (first.tail_takes second)
  · exact absurd skipped' (second.tail_takes first)

/-! ## The last connective of a chain -/

/-- A word of a chain that begins an operand is not followed by the connective of the
chain inside that operand. -/
theorem not_run_operand {operator : Connective} {word rest : List Kind} {last : List Demand}
    (chained : run (chain operator).demands word = some (chain operator).tail) :
    run operator.operand.demands (word ++ operator.kind :: rest) ≠ some last := by
  intro runs
  obtain ⟨middle, before, after⟩ := run_of_append runs
  -- The word alone leaves the tail of the operand, which skips the connective.
  have longer := run_over [.more operator] before
  rw [← demands_chain, chained, tail_chain] at longer
  have atTail : operator.operand.tail = middle :=
    List.append_cancel_right (Option.some.inj longer)
  rw [← atTail, run, operand_tail_skipped] at after
  cases after

/-- The word between two connectives of a chain is itself a word of the chain. -/
theorem run_between {operator : Connective} {first second : List Kind}
    (chained : run (chain operator).demands first = some (chain operator).tail)
    (longer : run (chain operator).demands (first ++ operator.kind :: second) =
      some (chain operator).tail) :
    run (chain operator).demands second = some (chain operator).tail := by
  have link := run_link operator [] second
  rw [List.append_nil, List.append_nil] at link
  rw [← link]
  rw [run_append, chained] at longer
  exact longer

/-- A connective of a chain does not stand inside the last operand. -/
theorem not_link_inside {operator : Connective} {token token' : Token}
    {leftTokens middle rest : List Token} {right' : Expr} (kind : token.kind = operator.kind)
    (kind' : token'.kind = operator.kind) (first : (chain operator).Derives leftTokens left)
    (longer : (chain operator).Derives (leftTokens ++ token :: middle) right)
    (operand : operator.operand.Derives (middle ++ token' :: rest) right') : False := by
  have longerRuns := longer.runs
  have operandRuns := operand.runs
  rw [List.map_append, List.map_cons, kind] at longerRuns
  rw [List.map_append, List.map_cons, kind'] at operandRuns
  exact not_run_operand (run_between first.runs longerRuns) operandRuns

/-- A chain is cut at its last connective in one way. -/
theorem link_unique {operator : Connective} {token token' : Token}
    {leftTokens leftTokens' rightTokens rightTokens' : List Token} {left' right' : Expr}
    (kind : token.kind = operator.kind) (kind' : token'.kind = operator.kind)
    (first : (chain operator).Derives leftTokens left)
    (first' : (chain operator).Derives leftTokens' left')
    (second : operator.operand.Derives rightTokens right)
    (second' : operator.operand.Derives rightTokens' right')
    (same : leftTokens ++ token :: rightTokens = leftTokens' ++ token' :: rightTokens') :
    leftTokens = leftTokens' ∧ rightTokens = rightTokens' := by
  rcases cut_cases same with ⟨sameLeft, -, sameRight⟩ | ⟨middle, rfl, rfl⟩ | ⟨middle, rfl, rfl⟩
  · exact ⟨sameLeft, sameRight⟩
  · exact (not_link_inside kind kind' first first' second).elim
  · exact (not_link_inside kind' kind first' first second').elim

/-- A lone operand is not cut at a connective of its chain. -/
theorem single_ne_link {operator : Connective} {token : Token}
    {leftTokens rightTokens : List Token} {left : Expr} (kind : token.kind = operator.kind)
    (single : operator.operand.Derives tokens right)
    (first : (chain operator).Derives leftTokens left) :
    tokens ≠ leftTokens ++ token :: rightTokens := by
  rintro rfl
  have operand := single.runs
  rw [List.map_append, List.map_cons, kind] at operand
  exact absurd operand (not_run_operand first.runs)

/-! ## Alternatives -/

/-- A value and a comparison start with the token of a value. -/
theorem Derives.starts_with_value {lower : List Demand} (derives : phrase.Derives tokens left)
    (demanded : phrase.demands = .operand :: lower) (ends : phrase.tail = []) :
    ∃ token rest, tokens = token :: rest ∧ token.kind.isValue = true := by
  have runs := derives.runs
  rw [demanded, ends] at runs
  cases tokens with
  | nil => cases runs
  | cons token rest => exact ⟨token, rest, rfl, isValue_of_run runs⟩

/-- A comparison does not start with a parenthesis. -/
theorem comparison_ne_enclosed {opening : Token} {rest : List Token}
    (inner : comparison.Derives tokens left) (openKind : opening.kind = .openParen) :
    tokens ≠ opening :: rest := by
  rintro rfl
  obtain ⟨token, others, same, isValue⟩ := inner.starts_with_value rfl rfl
  cases same
  rw [openKind] at isValue
  cases isValue

/-- A value is no if-expression. -/
theorem value_ne_ifExpression (plain : value.Derives tokens left)
    (nested : ifExpression.Derives others right) : tokens ≠ others := by
  rintro rfl
  obtain ⟨token, rest, same, isValue⟩ := plain.starts_with_value rfl rfl
  cases nested with
  | ifExpression wordKind =>
      cases same
      rw [wordKind] at isValue
      cases isValue

/-! ## Trees -/

private theorem tree_unique (first : phrase.Derives tokens left)
    (second : phrase.Derives others right) (same : tokens = others) : left = right := by
  induction first generalizing others right with
  | null kind =>
      cases second with
      | null => rfl
      | numeral names =>
          cases same
          rw [index?_kind names] at kind
          cases kind
  | numeral names =>
      cases second with
      | null kind =>
          cases same
          rw [index?_kind names] at kind
          cases kind
      | numeral names' =>
          cases same
          rw [Option.some.inj (names.symm.trans names')]
  | comparison first kind _ leftUnique rightUnique =>
      cases second with
      | comparison first' kind' second' =>
          obtain ⟨sameLeft, rfl, sameRight⟩ := first.cut_unique first' rfl rfl same
          rw [leftUnique first' sameLeft, rightUnique second' sameRight,
            Comparison.kind_injective (kind.symm.trans kind')]
  | compared inner unique =>
      cases second with
      | compared inner' => exact unique inner' same
      | enclosed openKind => exact absurd same (comparison_ne_enclosed inner openKind)
  | enclosed openKind inner closeKind unique =>
      cases second with
      | compared inner' => exact absurd same.symm (comparison_ne_enclosed inner' openKind)
      | enclosed openKind' inner' closeKind' =>
          obtain ⟨-, sameInner⟩ := List.cons.inj same
          exact unique inner' (List.append_inj_left' sameInner rfl)
  | single only unique =>
      cases second with
      | single only' => exact unique only' same
      | link first' kind' => exact absurd same (single_ne_link kind' only first')
  | link first kind second leftUnique rightUnique =>
      cases second with
      | single only' => exact absurd same.symm (single_ne_link kind only' first)
      | link first' kind' second' =>
          obtain ⟨sameLeft, sameRight⟩ := link_unique kind kind' first first' second second' same
          rw [leftUnique first' sameLeft, rightUnique second' sameRight]
  | plain inner unique =>
      cases second with
      | plain inner' => exact unique inner' same
      | nested inner' => exact absurd same (value_ne_ifExpression inner inner')
  | nested inner unique =>
      cases second with
      | plain inner' => exact absurd same.symm (value_ne_ifExpression inner' inner)
      | nested inner' => exact unique inner' same
  | ifExpression wordKind openKind test firstKind thenBranch secondKind elseBranch closeKind
      testUnique thenUnique elseUnique =>
      cases second with
      | ifExpression wordKind' openKind' test' firstKind' thenBranch' secondKind' elseBranch'
          closeKind' =>
          obtain ⟨-, sameRest⟩ := List.cons.inj same
          obtain ⟨-, sameRest⟩ := List.cons.inj sameRest
          obtain ⟨sameTest, -, sameRest⟩ := test.cut_unique test' (by rw [firstKind]; rfl)
            (by rw [firstKind']; rfl) sameRest
          obtain ⟨sameThen, -, sameRest⟩ := thenBranch.cut_unique thenBranch' rfl rfl sameRest
          rw [testUnique test' sameTest, thenUnique thenBranch' sameThen,
            elseUnique elseBranch' (List.append_inj_left' sameRest rfl)]
  | statement inner unique =>
      cases second with
      | statement inner' => exact unique inner' same

/-- The tokens of a phrase stand for one tree. -/
theorem Derives.unique (first : phrase.Derives tokens left)
    (second : phrase.Derives tokens right) : left = right :=
  tree_unique first second rfl

end Phrase

end SlotLogic
