import SlotLogic.Proofs.Rule.Answer
import SlotLogic.Proofs.Token.Displacement

/-!
Contract: a rule depends on what is left of the text only. What stands in front of its cursor
shifts every place that it reports, and changes nothing else.

Owns: replies behind further characters, one law for each way to combine rules, and the rules
themselves.

Nothing is asked of the cursor: it may stand inside a token, at the end of the text or behind
it. A rule moves back only to its own start, and such a move is ignored in both texts or in
none. Of two failures the further one is kept, and both are shifted alike.

Does not own: what a rule matches.
-/

set_option autoImplicit false

namespace SlotLogic

open SlotLogic.Text

variable {α β : Type} {front : List Char} {rule : Rule α}

/-! ## Replies behind further characters -/

/-- The same failure behind further characters. -/
def Failure.behind (front : List Char) (failure : Failure) : Failure :=
  { failure with found := failure.found.behind front }

/-- The same fault behind further characters. A numeral that is too long has no place. -/
def ReadFault.behind (front : List Char) : ReadFault → ReadFault
  | .failure refusal => .failure (refusal.behind front)
  | .overlong numeral => .overlong numeral

def RuleEntry.behind (front : List Char) (entry : RuleEntry) : RuleEntry :=
  { entry with position := entry.position + front.length }

/-- The same reply behind further characters. -/
def Reply.behind (front : List Char) (reply : Reply α) : Reply α :=
  ⟨reply.outcome.mapError (.behind front), reply.cursor.behind front,
    reply.entries.map (.behind front)⟩

/-- A rule replies alike behind further characters. -/
def Rule.Displaces (front : List Char) (rule : Rule α) : Prop :=
  ∀ cursor : Cursor, rule (cursor.behind front) = (rule cursor).behind front

theorem Failure.position_behind (failure : Failure) :
    (failure.behind front).position = failure.position + front.length :=
  rfl

theorem Failure.further_behind (first second : Failure) :
    (first.behind front).further (second.behind front) = (first.further second).behind front := by
  unfold Failure.further
  rw [position_behind, position_behind]
  by_cases order : second.position < first.position
  · rw [if_pos order, if_pos (by omega)]
  · rw [if_neg order, if_neg (by omega)]

theorem Failure.ofBranch_behind (value nested : Failure) :
    Failure.ofBranch (value.behind front) (nested.behind front) =
      (Failure.ofBranch value nested).behind front := by
  unfold Failure.ofBranch
  rw [position_behind, position_behind]
  by_cases order : value.position < nested.position
  · rw [if_pos order, if_pos (by omega)]
  · rw [if_neg order, if_neg (by omega)]
    rfl

/-! ## Sequences -/

theorem Reply.andThen_behind {reply : Reply α} {next shifted : α → Rule β}
    (later : ∀ value cursor, shifted value (cursor.behind front) =
      (next value cursor).behind front) :
    (reply.behind front).andThen shifted = (reply.andThen next).behind front := by
  obtain ⟨outcome, cursor, entries⟩ := reply
  cases outcome with
  | error fault => rfl
  | ok value =>
      show (⟨(shifted value (cursor.behind front)).outcome,
        (shifted value (cursor.behind front)).cursor,
        entries.map (.behind front) ++ (shifted value (cursor.behind front)).entries⟩ :
          Reply β) = _
      rw [later value cursor]
      exact congrArg (Reply.mk _ _) (List.map_append).symm

theorem displaces_pure (value : α) : Rule.Displaces front (pure value : Rule α) :=
  fun _ => rfl

theorem displaces_enter (name : RuleName) : Rule.Displaces front (Rule.enter name) :=
  fun _ => rfl

theorem displaces_charactersLeft : Rule.Displaces front Rule.charactersLeft := by
  intro cursor
  unfold Rule.charactersLeft
  rw [Cursor.remaining_behind_front]
  rfl

theorem displaces_bind {next : α → Rule β} (first : Rule.Displaces front rule)
    (later : ∀ value, Rule.Displaces front (next value)) :
    Rule.Displaces front (rule >>= next) := by
  intro cursor
  show (rule (cursor.behind front)).andThen next = ((rule cursor).andThen next).behind front
  rw [first cursor, Reply.andThen_behind later]

/-- The token itself is shifted, so what is done with it has to be shifted as well. -/
theorem displaces_takeToken {next : Token → Rule α}
    (later : ∀ token cursor, next (token.behind front) (cursor.behind front) =
      (next token cursor).behind front) :
    Rule.Displaces front (Rule.takeToken >>= next) := by
  intro cursor
  have shifted := cursor.next_behind front
  cases taken : cursor.next.1 with
  | error numeral =>
      rw [taken] at shifted
      rw [takeToken_bind_overlong taken, takeToken_bind_overlong (congrArg Prod.fst shifted)]
      rw [shifted]
      rfl
  | ok token =>
      rw [taken] at shifted
      rw [takeToken_bind taken, takeToken_bind (congrArg Prod.fst shifted)]
      rw [shifted]
      exact later token cursor.next.2

/-! ## Restored rules and choices -/

/-- The place to go back to is shifted with the text. -/
theorem returning_behind (start : Nat) (inner : Rule.Displaces front rule) (cursor : Cursor) :
    Rule.returning (start + front.length) rule (cursor.behind front) =
      (Rule.returning start rule cursor).behind front := by
  unfold Rule.returning
  rw [inner cursor]
  obtain ⟨outcome, stopped, entries⟩ := rule cursor
  rcases outcome with (failure | numeral) | value
  · have back := stopped.moveTo_behind front start
    exact congrArg (Reply.mk _ · _) back
  · rfl
  · rfl

theorem displaces_restoring (inner : Rule.Displaces front rule) :
    Rule.Displaces front (Rule.restoring rule) :=
  fun cursor => returning_behind cursor.position inner cursor

theorem displaces_followedBy {next : α → Rule β} (first : Rule.Displaces front rule)
    (later : ∀ value, Rule.Displaces front (next value)) :
    Rule.Displaces front (rule.followedBy next) := by
  intro cursor
  show (rule (cursor.behind front)).andThen
      (fun value => Rule.returning (cursor.position + front.length) (next value)) = _
  rw [first cursor]
  exact Reply.andThen_behind fun value => returning_behind cursor.position (later value)

theorem displaces_consume (kind : Kind) : Rule.Displaces front (Rule.consume kind) := by
  apply displaces_restoring
  apply displaces_takeToken
  intro token cursor
  show (if token.kind = kind then _ else _ : Rule Unit) _ = _
  split <;> rfl

theorem displaces_accepts (kind : Kind) : Rule.Displaces front (Rule.accepts kind) := by
  intro cursor
  unfold Rule.accepts
  rw [displaces_consume kind cursor]
  obtain ⟨outcome, stopped, entries⟩ := Rule.consume kind cursor
  rcases outcome with (failure | numeral) | value <;> rfl

theorem displaces_either {merge : Failure → Failure → Failure} {first second : Rule α}
    (merges : ∀ failure failure', merge (failure.behind front) (failure'.behind front) =
      (merge failure failure').behind front)
    (firstDisplaces : Rule.Displaces front first) (secondDisplaces : Rule.Displaces front second) :
    Rule.Displaces front (Rule.either merge first second) := by
  intro cursor
  unfold Rule.either
  rw [firstDisplaces cursor]
  obtain ⟨outcome, tried, entries⟩ := first cursor
  rcases outcome with (failure | numeral) | value
  · have start := tried.moveTo_behind front cursor.position
    have again := secondDisplaces (tried.moveTo cursor.position)
    rw [← start] at again
    simp only [Reply.behind, Except.mapError, ReadFault.behind]
    rw [show (cursor.behind front).position = cursor.position + front.length from rfl, again]
    obtain ⟨outcome', retried, entries'⟩ := second (tried.moveTo cursor.position)
    rcases outcome' with (failure' | numeral) | value
    · have back := retried.moveTo_behind front cursor.position
      simp only [Reply.behind, Except.mapError, ReadFault.behind, back, merges, List.map_append]
    · simp only [Reply.behind, Except.mapError, ReadFault.behind, List.map_append]
    · simp only [Reply.behind, Except.mapError, List.map_append]
  · rfl
  · rfl

theorem displaces_links (operator : Kind) (build : α → α → α) {operand : Rule α}
    (operands : Rule.Displaces front operand) (bound : Nat) (folded : α) :
    Rule.Displaces front (Rule.links operator build operand bound folded) := by
  induction bound generalizing folded with
  | zero => exact displaces_pure folded
  | succ bound inductionHypothesis =>
      apply displaces_bind (displaces_accepts operator)
      intro found
      cases found with
      | false => exact displaces_pure folded
      | true => exact displaces_bind operands fun right => inductionHypothesis (build folded right)

theorem displaces_chain (operator : Kind) (build : α → α → α) {operand : Rule α}
    (operands : Rule.Displaces front operand) :
    Rule.Displaces front (Rule.chain operator build operand) := by
  apply displaces_followedBy operands
  intro first
  apply displaces_bind displaces_charactersLeft
  intro bound
  exact displaces_links operator build operands bound first

/-! ## The rules of statements -/

theorem displaces_value : Rule.Displaces front Rule.value := by
  apply displaces_bind (displaces_enter .value)
  intro _
  apply displaces_restoring
  apply displaces_takeToken
  intro token cursor
  obtain ⟨kind, text, start⟩ := token
  cases kind <;> rfl

theorem displaces_comparison : Rule.Displaces front Rule.comparison := by
  apply displaces_bind (displaces_enter .comparison)
  intro _
  apply displaces_followedBy displaces_value
  intro left
  apply displaces_takeToken
  intro token cursor
  have sameKind : (token.behind front).kind = token.kind := rfl
  rw [sameKind]
  cases token.kind.comparison? with
  | none => rfl
  | some operator =>
      have completes : Rule.Displaces front
          (Rule.value >>= fun right => pure (Tree.compare operator left right)) :=
        displaces_bind displaces_value fun right => displaces_pure _
      exact completes cursor

section

variable {nested : Rule Expr}

theorem displaces_enclosed (inner : Rule.Displaces front nested) :
    Rule.Displaces front (Rule.enclosed nested) := by
  apply displaces_bind (displaces_consume .openParen)
  intro _
  apply displaces_bind inner
  intro expr
  apply displaces_bind (displaces_consume .closeParen)
  intro _
  exact displaces_pure expr

theorem displaces_conjunctionOver (inner : Rule.Displaces front nested) :
    Rule.Displaces front (Rule.conjunctionOver nested) := by
  apply displaces_bind (displaces_enter .conjunction)
  intro _
  exact displaces_either Failure.further_behind displaces_comparison (displaces_enclosed inner)

theorem displaces_disjunctionOver (inner : Rule.Displaces front nested) :
    Rule.Displaces front (Rule.disjunctionOver nested) := by
  apply displaces_bind (displaces_enter .disjunction)
  intro _
  apply displaces_chain
  exact displaces_conjunctionOver inner

theorem displaces_conditionOver (inner : Rule.Displaces front nested) :
    Rule.Displaces front (Rule.conditionOver nested) := by
  apply displaces_bind (displaces_enter .condition)
  intro _
  apply displaces_chain
  exact displaces_disjunctionOver inner

theorem displaces_expressionOver (inner : Rule.Displaces front nested) :
    Rule.Displaces front (Rule.expressionOver nested) := by
  apply displaces_bind (displaces_enter .expression)
  intro _
  exact displaces_either Failure.ofBranch_behind displaces_value inner

end

theorem displaces_conditionWithin (depth : Nat) :
    Rule.Displaces front (Rule.conditionWithin depth) := by
  induction depth with
  | zero => exact displaces_conditionOver displaces_comparison
  | succ depth inductionHypothesis => exact displaces_conditionOver inductionHypothesis

/-- The number of levels is the number of characters that are left, and these are the same. -/
theorem displaces_condition : Rule.Displaces front Rule.condition := by
  intro cursor
  unfold Rule.condition
  rw [cursor.remaining_behind_front]
  exact displaces_conditionWithin cursor.remaining.length cursor

theorem displaces_ifExpressionOver {nested : Rule Expr} (inner : Rule.Displaces front nested) :
    Rule.Displaces front (Rule.ifExpressionOver nested) := by
  apply displaces_bind (displaces_enter .ifExpression)
  intro _
  apply displaces_restoring
  apply displaces_bind (displaces_consume .ifWord)
  intro _
  apply displaces_bind (displaces_consume .openParen)
  intro _
  apply displaces_bind displaces_condition
  intro test
  apply displaces_bind (displaces_consume .semicolon)
  intro _
  apply displaces_bind (displaces_expressionOver inner)
  intro consequent
  apply displaces_bind (displaces_consume .semicolon)
  intro _
  apply displaces_bind (displaces_expressionOver inner)
  intro alternative
  apply displaces_bind (displaces_consume .closeParen)
  intro _
  exact displaces_pure _

theorem displaces_ifExpressionWithin (depth : Nat) :
    Rule.Displaces front (Rule.ifExpressionWithin depth) := by
  induction depth with
  | zero => exact displaces_ifExpressionOver displaces_value
  | succ depth inductionHypothesis => exact displaces_ifExpressionOver inductionHypothesis

theorem displaces_ifExpression : Rule.Displaces front Rule.ifExpression := by
  intro cursor
  unfold Rule.ifExpression
  rw [cursor.remaining_behind_front]
  exact displaces_ifExpressionWithin cursor.remaining.length cursor

theorem displaces_statement (lenient : Bool) : Rule.Displaces front (Rule.statement lenient) := by
  apply displaces_bind (displaces_enter .statement)
  intro _
  apply displaces_followedBy displaces_ifExpression
  intro expr
  cases lenient with
  | true => exact displaces_pure expr
  | false =>
      apply displaces_takeToken
      intro token cursor
      show (if token.kind = .endOfText then _ else _ : Rule Expr) _ = _
      split <;> rfl

theorem displaces_named (lenient : Bool) (name : RuleName) :
    Rule.Displaces front (Rule.named lenient name) := by
  cases name with
  | statement => exact displaces_statement lenient
  | ifExpression => exact displaces_ifExpression
  | condition => exact displaces_condition
  | disjunction => exact displaces_disjunctionOver displaces_condition
  | conjunction => exact displaces_conjunctionOver displaces_condition
  | comparison => exact displaces_comparison
  | expression => exact displaces_expressionOver displaces_ifExpression
  | value => exact displaces_value

/-! ## What is left of the text -/

/-- Two outcomes are the same, but a failure is reported some characters further on. -/
inductive SameFurtherOn (count : Nat) : Except ReadFault α → Except ReadFault α → Prop where
  | ok (value : α) : SameFurtherOn count (.ok value) (.ok value)
  | failure {near far : Failure}
      (report : far.report = { near.report with position := near.report.position + count }) :
      SameFurtherOn count (.error (.failure near)) (.error (.failure far))
  | overlong (numeral : OverlongNumeral) :
      SameFurtherOn count (.error (.overlong numeral)) (.error (.overlong numeral))

/-- Two replies are the same, but every place of the second is some characters further on. -/
structure Reply.FurtherOn (count : Nat) (near far : Reply α) : Prop where
  outcome : SameFurtherOn count near.outcome far.outcome
  position : far.cursor.position = near.cursor.position + count
  entries : far.entries =
    near.entries.map fun entry => { entry with position := entry.position + count }

/-- The description of a token does not tell its place. -/
theorem Failure.report_behind (failure : Failure) :
    (failure.behind front).report =
      { failure.report with position := failure.report.position + front.length } :=
  rfl

theorem Reply.furtherOn_behind (front : List Char) (reply : Reply α) :
    Reply.FurtherOn front.length reply (reply.behind front) := by
  obtain ⟨outcome, stopped, entries⟩ := reply
  refine ⟨?_, rfl, rfl⟩
  rcases outcome with (failure | numeral) | value
  · exact .failure failure.report_behind
  · exact .overlong numeral
  · exact .ok value

/-- A rule replies at a place as it does at the start of what is left there. -/
theorem Rule.Displaces.furtherOn {text : List Char} {place : Nat}
    (displaces : Rule.Displaces (text.take place) rule) (within : place ≤ text.length) :
    Reply.FurtherOn place (rule (.atStart (text.drop place))) (rule ⟨text, place⟩) := by
  have further :=
    Reply.furtherOn_behind (text.take place) (rule (.atStart (text.drop place)))
  rw [← displaces, Cursor.behind_of_within within, List.length_take_of_le within] at further
  exact further

/-- At every place of a text and at its end, each rule replies as it does at the start of what is
left from there: it builds the same tree, or it fails with the same report but for the place, or
it meets the same numeral that is too long. Where it stops, where it fails and where it enters
other rules is further on by the place at which it started. -/
theorem rules_depend_on_what_is_left (lenient : Bool) {text : List Char} {place : Nat}
    (within : place ≤ text.length) :
    (∀ name, Reply.FurtherOn place (Rule.named lenient name (.atStart (text.drop place)))
      (Rule.named lenient name ⟨text, place⟩)) ∧
    ∀ kind, Reply.FurtherOn place (Rule.consume kind (.atStart (text.drop place)))
      (Rule.consume kind ⟨text, place⟩) :=
  ⟨fun name => (displaces_named lenient name).furtherOn within,
    fun kind => (displaces_consume kind).furtherOn within⟩

/-- In the middle of a numeral a condition fails behind the digit that is left of it. At the end
of the text a closing parenthesis is missing, and the cursor stays there. -/
theorem condition_fails_within_numeral :
    Reply.FurtherOn 4 (Rule.condition (.atStart "2 or(3<".toList))
        (Rule.condition ⟨"if(12 or(3<".toList, 4⟩) ∧
      (Rule.condition ⟨"if(12 or(3<".toList, 4⟩).outcome =
        .error (.failure ⟨.comparisonOperator, ⟨.orWord, ['o', 'r'], 6⟩⟩) ∧
      Reply.FurtherOn 11 (Rule.consume .closeParen (.atStart []))
        (Rule.consume .closeParen ⟨"if(12 or(3<".toList, 11⟩) ∧
      (Rule.consume .closeParen ⟨"if(12 or(3<".toList, 11⟩).cursor.position = 11 := by
  have inside : 4 ≤ "if(12 or(3<".toList.length := by
    decide
  have atEnd : 11 ≤ "if(12 or(3<".toList.length := by
    decide
  exact ⟨(rules_depend_on_what_is_left false inside).1 .condition, by rfl,
    (rules_depend_on_what_is_left false atEnd).2 .closeParen, by rfl⟩

end SlotLogic
