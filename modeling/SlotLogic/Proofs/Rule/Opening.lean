import SlotLogic.Proofs.Rule.Ascent

/-!
Contract: every rule enters a few known rules at its own cursor and all others further
on, and fails where it started.

Owns: the rules that each rule enters at its own cursor, and the ascent of each rule.

The first token decides which of two alternatives goes on. A comparison that fails at
its first value has entered nothing behind it, and where its first token is a value, no
parenthesis opens there. A value is entered at its own place alone.

Does not own: how entries are combined.
-/

set_option autoImplicit false

namespace SlotLogic

open SlotLogic.Text

/-- The rules that a rule enters at its own cursor, itself first. -/
def RuleName.opening : RuleName → List RuleName
  | .value => [.value]
  | .comparison => [.comparison, .value]
  | .conjunction => [.conjunction, .comparison, .value]
  | .disjunction => [.disjunction, .conjunction, .comparison, .value]
  | .condition => [.condition, .disjunction, .conjunction, .comparison, .value]
  | .ifExpression => [.ifExpression]
  | .expression => [.expression, .value, .ifExpression]
  | .statement => [.statement, .ifExpression]

theorem RuleName.burst_opening (name : RuleName) : Burst name.opening := by
  cases name <;> exact ⟨by decide, by decide⟩

variable {cursor : Cursor}

/-! ## Values and comparisons -/

theorem settles_value (valid : cursor.Valid) :
    Settles RuleName.value.opening cursor (Rule.value cursor) := by
  apply settles_enter
  apply settles_restoring
  apply opens_takeToken valid
  intro token _
  have onward := (Cursor.next_leads valid).valid
  generalize token.kind = kind
  cases kind with
  | nullWord | number => exact .inl ⟨rfl, ascends_pure onward⟩
  | _ => exact .inr ⟨.operand, rfl⟩

theorem settles_comparison (valid : cursor.Valid) :
    Settles RuleName.comparison.opening cursor (Rule.comparison cursor) := by
  apply settles_enter
  apply settles_followedBy (settles_value valid)
  intro left afterLeft leads _
  apply ascends_bind (ascends_takeToken leads.valid)
  intro token afterToken onward
  cases token.kind.comparison? with
  | none => exact ascends_fail onward.valid
  | some operator =>
      apply ascends_bind ((settles_value onward.valid).ascends RuleName.value.burst_opening)
      intro right finish further
      exact ascends_pure further.valid

/-! ## What is entered no further on -/

theorem entries_takeToken {next : Token → Rule Expr}
    (silent : ∀ token later, (next token later).entries = []) :
    ((Rule.takeToken >>= next) cursor).entries = [] := by
  cases taken : cursor.next.1 with
  | error numeral => rw [takeToken_bind_overlong taken]
  | ok token =>
      rw [takeToken_bind taken]
      exact silent token cursor.next.2

/-- A value enters no rule but itself. -/
theorem entries_value : (Rule.value cursor).entries = entriesAt cursor.position [.value] := by
  show _ :: (Rule.returning _ _ cursor).entries = _
  rw [returning_entries, entries_takeToken]
  · rfl
  · intro token later
    generalize token.kind = kind
    cases kind <;> rfl

/-- A comparison whose first value fails enters nothing further on. -/
theorem entries_comparison {fault : ReadFault}
    (fails : (Rule.value cursor).outcome = .error fault) :
    (Rule.comparison cursor).entries = entriesAt cursor.position [.comparison, .value] := by
  show _ :: (Rule.followedBy _ _ cursor).entries = _
  rw [followedBy_error fails, entries_value]
  rfl

/-- Where a value is read no parenthesis opens. -/
theorem enclosed_at_value {nested : Rule Expr} {expr : Expr} (valid : cursor.Valid)
    (reads : (Rule.value cursor).outcome = .ok expr) :
    (Rule.enclosed nested cursor).entries = [] ∧
      ∃ fault, (Rule.enclosed nested cursor).outcome = .error fault := by
  obtain ⟨tokens, rest, readsTokens, derives, -⟩ := (answers_value valid).matched reads
  have apart : ∃ token, cursor.next.1 = .ok token ∧ token.kind ≠ .openParen := by
    cases derives with
    | null kind =>
        obtain _ | ⟨taken, -⟩ := readsTokens
        exact ⟨_, taken, by rw [kind]; decide⟩
    | numeral names =>
        obtain _ | ⟨taken, -⟩ := readsTokens
        exact ⟨_, taken, by rw [Phrase.index?_kind names]; decide⟩
  obtain ⟨token, taken, other⟩ := apart
  have refuses := consume_eq .openParen valid
  rw [taken] at refuses
  simp only [if_neg other] at refuses
  have fails := congrArg Reply.outcome refuses
  unfold Rule.enclosed
  rw [bind_error fails, refuses]
  exact ⟨rfl, _, rfl⟩

/-! ## Conditions -/

/-- A nested rule settles wherever less of the text is left. -/
def SettlesInside (name : RuleName) (nested : Rule Expr) (cursor : Cursor) : Prop :=
  ∀ later : Cursor, later.Valid → later.remaining.length < cursor.remaining.length →
    Settles name.opening later (nested later)

theorem SettlesInside.later {name : RuleName} {nested : Rule Expr} {later : Cursor}
    (inside : SettlesInside name nested cursor) (leads : cursor.Leads later) :
    SettlesInside name nested later := by
  intro further valid shorter
  have less := leads.remaining_le
  exact inside further valid (by omega)

theorem opens_enclosed {nested : Rule Expr} (valid : cursor.Valid)
    (inside : SettlesInside .condition nested cursor) :
    Opens [] cursor (Rule.enclosed nested cursor) := by
  apply opens_bind (settles_consume rfl valid).toOpens
  intro _ afterOpen leads moved
  have settles := inside afterOpen leads.valid (leads.remaining_lt moved)
  apply ascends_bind (settles.ascends RuleName.condition.burst_opening)
  intro inner afterInner onward
  apply ascends_bind (ascends_consume .closeParen onward.valid)
  intro _ finish further
  exact ascends_pure further.valid

theorem settles_conjunctionOver {nested : Rule Expr} (valid : cursor.Valid)
    (inside : SettlesInside .condition nested cursor) :
    Settles RuleName.conjunction.opening cursor (Rule.conjunctionOver nested cursor) := by
  apply settles_enter
  refine settles_either (settles_comparison valid).toOpens (opens_enclosed valid inside) ?_
  intro failure _
  cases value : (Rule.value cursor).outcome with
  | error fault => exact .inl (entries_comparison value)
  | ok expr => exact .inr (enclosed_at_value valid value)

theorem settles_disjunctionOver {nested : Rule Expr} (valid : cursor.Valid)
    (inside : SettlesInside .condition nested cursor) :
    Settles RuleName.disjunction.opening cursor (Rule.disjunctionOver nested cursor) := by
  apply settles_enter
  apply settles_chain _ _ RuleName.conjunction.burst_opening valid
  intro later leads
  exact settles_conjunctionOver leads.valid (inside.later leads)

theorem settles_conditionOver {nested : Rule Expr} (valid : cursor.Valid)
    (inside : SettlesInside .condition nested cursor) :
    Settles RuleName.condition.opening cursor (Rule.conditionOver nested cursor) := by
  apply settles_enter
  apply settles_chain _ _ RuleName.disjunction.burst_opening valid
  intro later leads
  exact settles_disjunctionOver leads.valid (inside.later leads)

theorem settles_condition (valid : cursor.Valid) :
    Settles RuleName.condition.opening cursor (Rule.condition cursor) :=
  condition_induction
    (motive := fun cursor reply => Settles RuleName.condition.opening cursor reply)
    (fun _ _ valid inside => settles_conditionOver valid inside) valid

/-! ## If-expressions -/

theorem settles_expressionOver {nested : Rule Expr} (valid : cursor.Valid)
    (inner : Settles RuleName.ifExpression.opening cursor (nested cursor)) :
    Settles RuleName.expression.opening cursor (Rule.expressionOver nested cursor) := by
  apply settles_enter
  refine settles_either (settles_value valid).toOpens inner.toOpens ?_
  intro failure _
  exact .inl entries_value

theorem settles_ifExpressionOver {nested : Rule Expr} (valid : cursor.Valid)
    (inside : SettlesInside .ifExpression nested cursor) :
    Settles RuleName.ifExpression.opening cursor (Rule.ifExpressionOver nested cursor) := by
  have branch : ∀ {later : Cursor}, cursor.Leads later → cursor.position < later.position →
      Ascends later (Rule.expressionOver nested later) := by
    intro later leads moved
    have inner := inside later leads.valid (leads.remaining_lt moved)
    exact (settles_expressionOver leads.valid inner).ascends RuleName.expression.burst_opening
  apply settles_enter
  apply settles_restoring
  apply opens_bind (settles_consume rfl valid).toOpens
  intro _ afterWord wordLeads moved
  apply ascends_bind (ascends_consume .openParen wordLeads.valid)
  intro _ afterOpen openLeads
  apply ascends_bind ((settles_condition openLeads.valid).ascends RuleName.condition.burst_opening)
  intro test afterTest testLeads
  apply ascends_bind (ascends_consume .semicolon testLeads.valid)
  intro _ afterFirst firstLeads
  have firstOnward := openLeads.trans (testLeads.trans firstLeads)
  apply ascends_bind (branch (wordLeads.trans firstOnward)
    (Nat.lt_of_lt_of_le moved firstOnward.forward))
  intro consequent afterThen thenLeads
  apply ascends_bind (ascends_consume .semicolon thenLeads.valid)
  intro _ afterSecond secondLeads
  have secondOnward := firstOnward.trans (thenLeads.trans secondLeads)
  apply ascends_bind (branch (wordLeads.trans secondOnward)
    (Nat.lt_of_lt_of_le moved secondOnward.forward))
  intro alternative afterElse elseLeads
  apply ascends_bind (ascends_consume .closeParen elseLeads.valid)
  intro _ finish closeLeads
  exact ascends_pure closeLeads.valid

theorem settles_ifExpression (valid : cursor.Valid) :
    Settles RuleName.ifExpression.opening cursor (Rule.ifExpression cursor) :=
  ifExpression_induction
    (motive := fun cursor reply => Settles RuleName.ifExpression.opening cursor reply)
    (fun _ _ valid inside => settles_ifExpressionOver valid inside) valid

/-! ## Statements -/

theorem settles_statement (lenient : Bool) (valid : cursor.Valid) :
    Settles RuleName.statement.opening cursor (Rule.statement lenient cursor) := by
  apply settles_enter
  apply settles_followedBy (settles_ifExpression valid)
  intro expr afterExpr leads _
  cases lenient with
  | true => exact ascends_pure leads.valid
  | false =>
      apply ascends_bind (ascends_takeToken leads.valid)
      intro token finish onward
      by_cases ends : token.kind = .endOfText
      · rw [if_pos ends]
        exact ascends_pure onward.valid
      · rw [if_neg ends]
        exact ascends_fail onward.valid

/-- Every rule enters the rules of its opening at its cursor and all others further on,
and a rule that fails leaves the cursor where it started. -/
theorem settles_named (lenient : Bool) (name : RuleName) (valid : cursor.Valid) :
    Settles name.opening cursor (Rule.named lenient name cursor) := by
  cases name with
  | statement => exact settles_statement lenient valid
  | ifExpression => exact settles_ifExpression valid
  | condition => exact settles_condition valid
  | disjunction =>
      exact settles_disjunctionOver valid fun _ valid _ => settles_condition valid
  | conjunction =>
      exact settles_conjunctionOver valid fun _ valid _ => settles_condition valid
  | comparison => exact settles_comparison valid
  | expression => exact settles_expressionOver valid (settles_ifExpression valid)
  | value => exact settles_value valid

end SlotLogic
