import SlotLogic.Proofs.Rule.Opening
import SlotLogic.Rule.Session

/-!
Contract: a rule that fails gives its place back, one that matches moves on, and on the
way through a text no rule is entered twice at one place.

Owns: the cursors that the steps of a caller lead to, what each rule does from them, and
the order and number of the entries of a reading.

Does not own: what a rule matches.
-/

set_option autoImplicit false

namespace SlotLogic

open SlotLogic.Text

variable {lenient : Bool} {text : List Char} {cursor : Cursor}

/-! ## Steps of a caller -/

/-- The cursors that steps on a text lead to, in any order and number. -/
inductive Step.Reaches (lenient : Bool) (text : List Char) : Cursor → Prop where
  | start : Reaches lenient text (Cursor.atStart text)
  | step {cursor : Cursor} (step : Step) (earlier : Reaches lenient text cursor) :
      Reaches lenient text (step.run lenient cursor).cursor

theorem moveTo_stays (valid : cursor.Valid) (target : Int) :
    (cursor.moveTo target).text = cursor.text ∧ (cursor.moveTo target).Valid := by
  unfold Cursor.moveTo
  split
  · refine ⟨rfl, ?_⟩
    show target.toNat ≤ cursor.text.length
    omega
  · exact ⟨rfl, valid⟩

/-- Every step keeps to the text, whatever it answers. -/
theorem step_stays (lenient : Bool) (step : Step) (valid : cursor.Valid) :
    (step.run lenient cursor).cursor.text = cursor.text ∧
      (step.run lenient cursor).cursor.Valid := by
  have stays : ∀ {α : Type} {rule : Rule α} {result : α → StepResult},
      Ascends cursor (rule cursor) →
      ((rule >>= fun value => pure (result value)) cursor).cursor.text = cursor.text ∧
        ((rule >>= fun value => pure (result value)) cursor).cursor.Valid := by
    intro α rule result ascends
    have whole : Ascends cursor ((rule >>= fun value => pure (result value)) cursor) :=
      ascends_bind ascends fun value finish leads => ascends_pure leads.valid
    exact ⟨whole.leads.text, whole.leads.valid⟩
  cases step with
  | rule name => exact stays ((settles_named lenient name valid).ascends name.burst_opening)
  | consume kind => exact stays (ascends_consume kind valid)
  | next => exact stays (ascends_takeToken valid)
  | moveTo target => exact moveTo_stays valid target

theorem Step.Reaches.stays (reaches : Step.Reaches lenient text cursor) :
    cursor.text = text ∧ cursor.Valid := by
  induction reaches with
  | start => exact ⟨rfl, Cursor.atStart_valid text⟩
  | step step _ inductionHypothesis =>
      obtain ⟨sameText, valid⟩ := inductionHypothesis
      have stays := step_stays lenient step valid
      exact ⟨stays.1.trans sameText, stays.2⟩

/-- Wherever steps on a text lead, the cursor stands in the text or at its end. From
there a rule that fails, also the rule of a whole statement, leaves the cursor where it
stood, and so does a token that is demanded in vain. A rule that matches moves the
cursor on. -/
theorem failed_rule_gives_place_back (reaches : Step.Reaches lenient text cursor) :
    cursor.text = text ∧ cursor.position ≤ text.length ∧
      (∀ name failure, (Rule.named lenient name cursor).outcome = .error (.failure failure) →
        (Rule.named lenient name cursor).cursor = cursor) ∧
      (∀ kind failure, (Rule.consume kind cursor).outcome = .error (.failure failure) →
        (Rule.consume kind cursor).cursor = cursor) ∧
      ∀ name expr, (Rule.named lenient name cursor).outcome = .ok expr →
        cursor.position < (Rule.named lenient name cursor).cursor.position := by
  obtain ⟨sameText, valid⟩ := reaches.stays
  have settles := fun name => settles_named lenient name valid
  refine ⟨sameText, ?_, ?_, ?_, ?_⟩
  · rw [← sameText]
    exact valid
  · intro name failure fails
    exact (settles name).restored failure fails
  · intro kind failure fails
    exact consume_restored valid fails
  · intro name expr matched
    exact (settles name).advances matched

/-- Behind `null and` a conjunction opens a parenthesis, reads on to the end of the text
and fails there. It gives its place back, which is not the start. -/
theorem conjunction_fails_at_end :
    Step.Reaches false "null and(1=2 or".toList ⟨"null and(1=2 or".toList, 8⟩ ∧
      (Rule.conjunction ⟨"null and(1=2 or".toList, 8⟩).outcome =
        .error (.failure ⟨.token .openParen, ⟨.endOfText, [], 15⟩⟩) ∧
      (Rule.conjunction ⟨"null and(1=2 or".toList, 8⟩).cursor =
        ⟨"null and(1=2 or".toList, 8⟩ := by
  have reaches : Step.Reaches false "null and(1=2 or".toList ⟨"null and(1=2 or".toList, 8⟩ :=
    .step (.consume .andWord) (.step (.rule .value) .start)
  have fails : (Rule.named false .conjunction ⟨"null and(1=2 or".toList, 8⟩).outcome =
      .error (.failure ⟨.token .openParen, ⟨.endOfText, [], 15⟩⟩) := by
    rfl
  have restored := (failed_rule_gives_place_back reaches).2.2.1
  exact ⟨reaches, fails, restored .conjunction _ fails⟩

/-! ## Entries of a reading -/

/-- Reading a text enters no rule twice at one place, goes through the places in order,
and enters at most five rules for each place of the text and its end. -/
theorem entries_go_through_text_once (lenient : Bool) (text : List Char) :
    (readStatement lenient text).entries.Nodup ∧
      ((readStatement lenient text).entries.Pairwise
        fun earlier later => earlier.position ≤ later.position) ∧
      (readStatement lenient text).entries.length ≤ 5 * (text.length + 1) := by
  have valid := Cursor.atStart_valid text
  have ascends := (settles_named lenient .statement valid).ascends
    RuleName.statement.burst_opening
  have bound := ascends.ascent.length_le
  have limit := ascends.limit_le
  refine ⟨ascends.ascent.nodup, ascends.ascent.sorted, ?_⟩
  exact Nat.le_trans bound (Nat.mul_le_mul_left 5 (Nat.le_trans (Nat.sub_le _ _) limit))

end SlotLogic
