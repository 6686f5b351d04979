import SlotLogic.Proofs.Statement.Acceptance
import SlotLogic.Proofs.Token.Continuation

/-!
Contract: the lenient reader stops behind the statement, and the strict reader differs
from it only in what it says about the text that is left.

Owns: the answer of the strict reader in terms of the lenient one, the place of input
that trails, and the independence of a lenient answer from what follows it.

Does not own: which texts are statements.
-/

set_option autoImplicit false

namespace SlotLogic

open SlotLogic.Text

variable {text : List Char} {expr : Expr} {fault : ReadFault}

/-! ## The closing parenthesis -/

/-- An if-expression ends with a closing parenthesis. -/
theorem Phrase.Derives.closed {tokens : List Token}
    (derives : Phrase.ifExpression.Derives tokens expr) :
    ∃ inner closing, tokens = inner ++ [closing] ∧ closing.kind = .closeParen := by
  cases derives with
  | @ifExpression word opening first second closing testTokens thenTokens elseTokens _ _ _ _ _ _
      _ _ _ _ closeKind =>
      refine ⟨word :: opening :: (testTokens ++ first :: (thenTokens ++ second :: elseTokens)),
        closing, ?_, closeKind⟩
      simp

/-- What the lenient reader read is a statement up to its closing parenthesis. -/
theorem reads_of_lenient (accepted : parse true text = .ok expr) :
    ∃ inner closing, (Cursor.atStart text).Reads (inner ++ [closing])
        (readStatement true text).cursor ∧
      Phrase.ifExpression.Derives (inner ++ [closing]) expr ∧ closing.kind = .closeParen := by
  obtain ⟨tokens, rest, reads, derives, -⟩ := (answers_lenientText text).matched accepted
  obtain ⟨inner, closing, rfl, closes⟩ := derives.closed
  exact ⟨inner, closing, reads, derives, closes⟩

/-- The lenient reader stays with its answer and its place, whatever follows there. -/
theorem lenient_of_continued (accepted : parse true text = .ok expr) (more : List Char) :
    parse true (text.take (readStatement true text).cursor.position ++ more) = .ok expr ∧
      (readStatement true
        (text.take (readStatement true text).cursor.position ++ more)).cursor.position =
          (readStatement true text).cursor.position := by
  obtain ⟨inner, closing, reads, derives, closes⟩ := reads_of_lenient accepted
  have passes : ∀ token ∈ inner, token.kind.isFinal = false := fun token member =>
    derives.passes token (List.mem_append_left _ member)
  have again := reads.continued_behind (Cursor.atStart_valid text) passes closes more
  obtain ⟨value, outcome, arrives, derives'⟩ :=
    (answers_lenientText _).ok_of_reads (fun _ _ derives => derives.runs) again derives.runs
  have place := congrArg Cursor.position arrives
  rw [derives.unique derives']
  exact ⟨outcome, place⟩

/-! ## The two readers on an if-expression -/

variable {cursor : Cursor}

/-- What keeps an if-expression from being read does so in both readers. -/
theorem statement_of_fault (lenient : Bool)
    (fails : (Rule.ifExpression cursor).outcome = .error fault) :
    (Rule.statement lenient cursor).outcome = .error fault := by
  show (Rule.followedBy _ _ cursor).outcome = _
  rw [followedBy_error fails]

/-- The lenient reader stops where the if-expression does. -/
theorem lenient_of_ok (matched : (Rule.ifExpression cursor).outcome = .ok expr) :
    (Rule.statement true cursor).outcome = .ok expr ∧
      (Rule.statement true cursor).cursor = (Rule.ifExpression cursor).cursor := by
  have body : Rule.ifExpression.followedBy (fun expr => (pure expr : Rule Expr)) cursor =
      ⟨.ok expr, (Rule.ifExpression cursor).cursor, (Rule.ifExpression cursor).entries ++ []⟩ :=
    followedBy_ok matched
  have outcome := congrArg Reply.outcome body
  have stops := congrArg Reply.cursor body
  exact ⟨outcome, stops⟩

/-- The strict reader takes one more token behind the if-expression. -/
theorem strict_of_ok (matched : (Rule.ifExpression cursor).outcome = .ok expr) :
    (Rule.statement false cursor).outcome =
      match (Rule.ifExpression cursor).cursor.next.1 with
      | .error numeral => .error (.overlong numeral)
      | .ok token =>
        if token.kind = .endOfText then .ok expr
        else .error (.failure ⟨.endOfText, token⟩) := by
  show (Rule.followedBy _ _ cursor).outcome = _
  rw [followedBy_ok matched, returning_outcome]
  show ((Rule.takeToken >>= _) (Rule.ifExpression cursor).cursor).outcome = _
  cases taken : (Rule.ifExpression cursor).cursor.next.1 with
  | error numeral => rw [takeToken_bind_overlong taken]
  | ok token =>
      rw [takeToken_bind taken]
      simp only
      split <;> rfl

/-! ## Input that trails -/

theorem strict_of_fault (fails : parse true text = .error fault) :
    parse false text = .error fault := by
  cases attempt : (Rule.ifExpression (Cursor.atStart text)).outcome with
  | ok expr =>
      have matched := (lenient_of_ok attempt).1
      cases fails.symm.trans matched
  | error fault' =>
      have same := statement_of_fault true attempt
      cases fails.symm.trans same
      exact statement_of_fault false attempt

theorem strict_of_lenient (accepted : parse true text = .ok expr) :
    parse false text =
      match (readStatement true text).cursor.next.1 with
      | .error numeral => .error (.overlong numeral)
      | .ok token =>
        if token.kind = .endOfText then .ok expr
        else .error (.failure ⟨.endOfText, token⟩) := by
  cases attempt : (Rule.ifExpression (Cursor.atStart text)).outcome with
  | error fault =>
      have fails := statement_of_fault true attempt
      cases accepted.symm.trans fails
  | ok expr' =>
      obtain ⟨same, stop⟩ := lenient_of_ok attempt
      cases accepted.symm.trans same
      unfold readStatement
      rw [stop]
      exact strict_of_ok attempt

theorem lenient_cursor (text : List Char) :
    (readStatement true text).cursor = ⟨text, (readStatement true text).cursor.position⟩ := by
  have sameText := ((answers_lenientText text).leads (Cursor.atStart_valid text)).text
  generalize (readStatement true text).cursor = cursor at sameText
  cases cursor
  cases sameText
  rfl

theorem lenient_remaining (text : List Char) :
    (readStatement true text).cursor.remaining =
      text.drop (readStatement true text).cursor.position :=
  congrArg Cursor.remaining (lenient_cursor text)

/-- Behind a statement the strict reader accepts blanks, and nothing else. -/
theorem strict_accepts_iff_blank (accepted : parse true text = .ok expr) :
    parse false text = .ok expr ↔
      ∀ c ∈ text.drop (readStatement true text).cursor.position, isBlank c = true := by
  rw [strict_of_lenient accepted, ← lenient_remaining, ← Cursor.next_endOfText_iff]
  cases (readStatement true text).cursor.next.1 with
  | error numeral => simp
  | ok token =>
      by_cases ends : token.kind = .endOfText <;> simp [ends]

/-- What trails is blamed where the blanks end. -/
theorem strict_blames_trailing (accepted : parse true text = .ok expr)
    (trails : ∃ c ∈ text.drop (readStatement true text).cursor.position, isBlank c = false) :
    (∃ numeral, (readStatement true text).cursor.next.1 = .error numeral ∧
      parse false text = .error (.overlong numeral)) ∨
    ∃ found, parse false text = .error (.failure ⟨.endOfText, found⟩) ∧
      found.start = (readStatement true text).cursor.position +
        (text.drop (readStatement true text).cursor.position).findIdx fun c => !isBlank c := by
  obtain ⟨c, member, solid⟩ := trails
  rw [← lenient_remaining] at member ⊢
  rw [strict_of_lenient accepted]
  cases taken : (readStatement true text).cursor.next.1 with
  | error numeral => exact .inl ⟨numeral, rfl, rfl⟩
  | ok found =>
      have start := (Cursor.scan_of_next taken).2
      rw [Cursor.skipBlanks_position] at start
      have other : found.kind ≠ .endOfText := by
        intro ends
        have blank := Cursor.next_endOfText_iff.mp ⟨found, taken, ends⟩ c member
        rw [solid] at blank
        cases blank
      exact .inr ⟨found, if_neg other, start⟩

/-- The two readers agree but for input that trails. Where the lenient one fails, the
strict one fails alike. Where the lenient one stops, the strict one accepts the statement
if only blanks are left, and otherwise blames the first character that is no blank, unless
a numeral stands there that is too long. The lenient answer does not depend on what
follows the place where it stops, however the text goes on from there. -/
theorem readers_differ_on_trailing_input (text : List Char) :
    (∀ fault, parse true text = .error fault → parse false text = .error fault) ∧
    ∀ expr stop, parse true text = .ok expr →
      (readStatement true text).cursor.position = stop →
      (parse false text = .ok expr ↔ ∀ c ∈ text.drop stop, isBlank c = true) ∧
      ((∃ c ∈ text.drop stop, isBlank c = false) →
        (∃ numeral, (Cursor.next ⟨text, stop⟩).1 = .error numeral ∧
          parse false text = .error (.overlong numeral)) ∨
        ∃ failure, parse false text = .error (.failure failure) ∧
          failure.report.message = "Unexpected trailing input" ∧
          failure.report.expected = ["EOF"] ∧
          failure.report.position = stop + (text.drop stop).findIdx fun c => !isBlank c) ∧
      ∀ more, parse true (text.take stop ++ more) = .ok expr ∧
        (readStatement true (text.take stop ++ more)).cursor.position = stop := by
  refine ⟨fun fault => strict_of_fault, ?_⟩
  rintro expr stop accepted rfl
  refine ⟨strict_accepts_iff_blank accepted, ?_, lenient_of_continued accepted⟩
  intro trails
  rcases strict_blames_trailing accepted trails with ⟨numeral, taken, overlong⟩ |
    ⟨found, fails, start⟩
  · rw [lenient_cursor] at taken
    exact .inl ⟨numeral, taken, overlong⟩
  · refine .inr ⟨_, fails, rfl, rfl, ?_⟩
    exact congrArg Int.ofNat start

/-- A numeral behind two blanks is blamed where it stands. With a digit and a connective
right behind the closing parenthesis instead, the lenient reader gives the same tree. A
text that fails before its end fails alike in both readers. -/
theorem numeral_trails_statement :
    (∃ failure, parse false "if(1=2;3;null) \t9x".toList = .error (.failure failure) ∧
      failure.report.message = "Unexpected trailing input" ∧
      failure.report.expected = ["EOF"] ∧ failure.report.position = 16) ∧
    (parse true "if(1=2;3;null)0or".toList =
        .ok (.choose (.compare .eq (.slot 1) (.slot 2)) (.slot 3) .null) ∧
      (readStatement true "if(1=2;3;null)0or".toList).cursor.position = 14) ∧
    parse false "if(1=2;3 4)".toList =
      .error (.failure ⟨.token .semicolon, ⟨.number, ['4'], 9⟩⟩) := by
  have accepted : parse true "if(1=2;3;null) \t9x".toList =
      .ok (.choose (.compare .eq (.slot 1) (.slot 2)) (.slot 3) .null) := by rfl
  have stop : (readStatement true "if(1=2;3;null) \t9x".toList).cursor.position = 14 := by rfl
  have trails : ∃ c ∈ "if(1=2;3;null) \t9x".toList.drop 14, isBlank c = false :=
    ⟨'9', by decide, by decide⟩
  obtain ⟨-, blamed, again⟩ :=
    (readers_differ_on_trailing_input "if(1=2;3;null) \t9x".toList).2 _ _ accepted stop
  refine ⟨?_, again "0or".toList, ?_⟩
  · rcases blamed trails with ⟨numeral, taken, -⟩ | fails
    · cases taken
    · exact fails
  · exact (readers_differ_on_trailing_input "if(1=2;3 4)".toList).1 _ (by rfl)

end SlotLogic
