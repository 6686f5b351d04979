import SlotLogic.Proofs.Statement.Acceptance
import SlotLogic.Proofs.Token.Appending

/-!
Contract: a failure does not depend on the text behind the token that was found.

Owns: the failures of both readers in terms of what they demand, and failures on a text that
goes on behind a blank.

A reader tries alternatives and moves back from them, but what it demands is decided by the
tokens up to the one that is refused. These are taken again where a blank keeps the last of
them from running on.

Does not own: failures at the end of the text.
-/

set_option autoImplicit false

namespace SlotLogic

open SlotLogic.Text Demand

/-- What a reader demands of a text. -/
def readerDemands (lenient : Bool) : List Demand :=
  if lenient then Phrase.ifExpression.demands else Phrase.textDemands

variable {text : List Char} {lenient : Bool} {failure : Failure} {gap : Char}

/-- A reader fails exactly where what it demands is refused. -/
theorem parse_failure_iff :
    parse lenient text = .error (.failure failure) ↔
      Refused (readerDemands lenient) (Cursor.atStart text) failure := by
  cases lenient with
  | false => exact (answers_text text).failure_iff fun _ _ => WholeStatement.runs
  | true => exact (answers_lenientText text).failure_iff fun _ _ derives => derives.runs

theorem Token.description_endOfText {token : Token} (ends : token.kind = .endOfText) :
    token.description = Kind.endOfText.name := by
  simp [description, index?, ends, Kind.isFinal]

/-- A token that is refused, and is not the end of the text, is refused in front of a blank,
whatever follows it. -/
theorem Refused.before_blank {demands : List Demand}
    (refused : Refused demands (Cursor.atStart text) failure)
    (present : failure.found.kind ≠ .endOfText) (blank : isBlank gap = true) (more : List Char) :
    Refused demands (Cursor.atStart (text ++ gap :: more)) failure := by
  obtain ⟨tokens, later, rest, reads, found, runs, refuses⟩ := refused
  have valid := Cursor.atStart_valid text
  have leads := reads.leads valid
  have others := reads.before_end found present
  have again := reads.before_blank valid others blank more
  have foundAgain := Cursor.next_before_blank leads.valid found present blank more
  have start : (Cursor.atStart text).continued (Cursor.atStart text).text.length (gap :: more) =
      Cursor.atStart (text ++ gap :: more) := by
    show (⟨text.take text.length ++ gap :: more, 0⟩ : Cursor) = _
    rw [List.take_length]
    rfl
  rw [leads.text] at foundAgain
  rw [start] at again
  exact ⟨tokens, _, rest, again, congrArg Prod.fst foundAgain, runs, refuses⟩

/-- A failure at a token, and not at the end of the text, stands. However a text goes on behind
a blank, the same reader fails at the same token for the same reason, so its report is the
same. -/
theorem failure_stands_before_blank {text : List Char} {lenient : Bool} {failure : Failure}
    {gap : Char} (more : List Char) (fails : parse lenient text = .error (.failure failure))
    (present : failure.report.found ≠ some "EOF") (blank : isBlank gap = true) :
    parse lenient (text ++ gap :: more) = .error (.failure failure) := by
  have other : failure.found.kind ≠ .endOfText := fun ends =>
    present (congrArg some (Token.description_endOfText ends))
  exact parse_failure_iff.mpr ((parse_failure_iff.mp fails).before_blank other blank more)

/-- The sign that stands where a branch is missing is blamed alone, though `=` and a whole
branch follow behind a tab. -/
theorem lone_sign_is_blamed :
    parse true "if(1=2;3;<".toList = .error (.failure ⟨.branch, ⟨.lt, ['<'], 9⟩⟩) ∧
      (⟨.branch, ⟨.lt, ['<'], 9⟩⟩ : Failure).report.found ≠ some "EOF" ∧ isBlank '\t' = true ∧
      parse true ("if(1=2;3;<".toList ++ '\t' :: "=4;5)".toList) =
        .error (.failure ⟨.branch, ⟨.lt, ['<'], 9⟩⟩) := by
  have fails : parse true "if(1=2;3;<".toList =
      .error (.failure ⟨.branch, ⟨.lt, ['<'], 9⟩⟩) := by
    rfl
  have present : (⟨.branch, ⟨.lt, ['<'], 9⟩⟩ : Failure).report.found ≠ some "EOF" := by
    decide
  have blank : isBlank '\t' = true := by
    decide
  exact ⟨fails, present, blank, failure_stands_before_blank "=4;5)".toList fails present blank⟩

end SlotLogic
