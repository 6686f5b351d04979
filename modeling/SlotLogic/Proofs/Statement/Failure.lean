import SlotLogic.Proofs.Grammar.Completion
import SlotLogic.Proofs.Statement.Acceptance

/-!
Contract: a failure of the strict reader stands at the first token that no
statement goes on with.

Owns: the place and the description of a failure, against the tokens of the text.

The demands carry the argument. What stands before the failure was run through, so
it can be completed; the token that was found is refused there, so no statement
takes it.

Does not own: what a failure says was expected.
-/

set_option autoImplicit false

namespace SlotLogic

open SlotLogic.Text Demand

variable {word : List Kind} {rest : List Demand} {kind : Kind} {wanted : Wanted}

/-- After a token that is refused no statement goes on. -/
theorem not_begins_of_refused (runs : run Phrase.textDemands word = some rest)
    (refused : reactAll rest kind = .refused wanted) :
    ¬Phrase.statement.Begins (word ++ [kind]) := by
  rintro ⟨more, tokens, expr, derives, kinds⟩
  have whole : run Phrase.textDemands (tokens.map Token.kind) =
      some (Phrase.statement.tail ++ [.endOfText]) := run_over [.endOfText] derives.runs
  rw [kinds, List.append_assoc] at whole
  exact not_run_of_refused runs refused whole

/-- Where the end of the text is refused, no statement ends. -/
theorem not_sentence_of_refused (runs : run Phrase.textDemands word = some rest)
    (refused : reactAll rest .endOfText = .refused wanted) : ¬IsSentence word := by
  rintro ⟨tokens, expr, derives, kinds⟩
  have ends : (Phrase.sample .endOfText).kind = .endOfText := rfl
  have whole := derives.runs_text ends
  rw [List.map_append, kinds] at whole
  exact not_run_of_refused runs refused whole

/-- A failure of the strict reader shows a token of the text. The tokens before it
begin a statement, no statement goes on with it, and at the end of the text the
tokens before it are no statement. -/
theorem failure_at_first_refused_token {text : List Char} {failure : Failure}
    (fails : parse false text = .error (.failure failure)) :
    ∃ (earlier : List Token) (found : Token) (finish : Cursor),
      (Cursor.atStart text).Reads (earlier ++ [found]) finish ∧
      failure.report.position = found.start ∧
      failure.report.found = some found.description ∧
      Phrase.statement.Begins (earlier.map Token.kind) ∧
      ¬Phrase.statement.Begins ((earlier ++ [found]).map Token.kind) ∧
      ¬(found.kind = .endOfText ∧ IsSentence (earlier.map Token.kind)) := by
  obtain ⟨earlier, later, rest, reads, taken, runs, refuses⟩ := (answers_text text).refused fails
  refine ⟨earlier, failure.found, _, reads.append (.one taken), rfl, rfl,
    Phrase.begins_of_run runs refuses, ?_, ?_⟩
  · rw [List.map_append]
    exact not_begins_of_refused runs refuses
  · rintro ⟨ends, sentence⟩
    rw [ends] at refuses
    exact not_sentence_of_refused runs refuses sentence

/-- The operand that is missing after `or` is reported behind two levels of
parentheses, both of which are tried as comparisons first. -/
theorem failure_after_connective :
    parse false "if((1=2 or 3<4)and(5>6 or;null;null)".toList =
        .error (.failure ⟨.token .openParen, ⟨.semicolon, [';'], 25⟩⟩) ∧
      ∃ (earlier : List Token) (found : Token) (finish : Cursor),
        (Cursor.atStart "if((1=2 or 3<4)and(5>6 or;null;null)".toList).Reads
          (earlier ++ [found]) finish ∧
        (25 : Int) = found.start ∧
        some "SEMI(;)" = some found.description ∧
        Phrase.statement.Begins (earlier.map Token.kind) ∧
        ¬Phrase.statement.Begins ((earlier ++ [found]).map Token.kind) ∧
        ¬(found.kind = .endOfText ∧ IsSentence (earlier.map Token.kind)) := by
  have fails : parse false "if((1=2 or 3<4)and(5>6 or;null;null)".toList =
      .error (.failure ⟨.token .openParen, ⟨.semicolon, [';'], 25⟩⟩) := by
    rfl
  exact ⟨fails, failure_at_first_refused_token fails⟩

end SlotLogic
