import SlotLogic.Proofs.Grammar.Shape
import SlotLogic.Proofs.Grammar.Unambiguity
import SlotLogic.Proofs.Rule.Phrase

/-!
Contract: the reader of statements accepts exactly the texts that are statements.

Owns: the agreement of the reader with the grammar on the tokens of a text, and the
shape of every tree that is read.

Does not own: where a text that is no statement fails.
-/

set_option autoImplicit false

namespace SlotLogic

open SlotLogic.Text Demand

variable {text : List Char} {expr : Expr}

theorem answers_text (text : List Char) :
    Answers Phrase.textDemands WholeStatement (Cursor.atStart text) (readStatement false text) :=
  answers_strictStatement (Cursor.atStart_valid text)

theorem answers_lenientText (text : List Char) :
    Answers Phrase.ifExpression.demands Phrase.ifExpression.Derives (Cursor.atStart text)
      (readStatement true text) :=
  answers_lenientStatement (Cursor.atStart_valid text)

/-! ## From the reader to the grammar -/

/-- A text that is accepted is read to its end as a statement. -/
theorem reads_of_parse (accepted : parse false text = .ok expr) :
    ∃ tokens final finish, (Cursor.atStart text).Reads (tokens ++ [final]) finish ∧
      final.kind = .endOfText ∧ Phrase.ifExpression.Derives tokens expr := by
  obtain ⟨read, rest, reads, holds, -⟩ := (answers_text text).matched accepted
  obtain ⟨tokens, final, rfl, ends, derives⟩ := holds
  exact ⟨tokens, final, _, reads, ends, derives⟩

/-- The numerals that are read name slots that a statement can name. -/
theorem Cursor.Reads.indicesInRange {start finish : Cursor} {tokens : List Token}
    (reads : start.Reads tokens finish) : Phrase.IndicesInRange tokens := by
  intro token member index names
  obtain ⟨cursor, taken⟩ := reads.taken_of_mem token member
  exact Cursor.next_index_range taken names

/-- Whatever is read, with or without input that trails, is a statement tree. -/
theorem isStatement_of_parse {lenient : Bool} (accepted : parse lenient text = .ok expr) :
    expr.isStatement = true := by
  cases lenient with
  | false =>
      obtain ⟨tokens, final, finish, reads, -, derives⟩ := reads_of_parse accepted
      obtain ⟨middle, reads, -⟩ := reads.split
      exact derives.shape reads.indicesInRange
  | true =>
      obtain ⟨tokens, rest, reads, derives, -⟩ := (answers_lenientText text).matched accepted
      exact derives.shape reads.indicesInRange

/-- No token inside a statement is final. -/
theorem Phrase.Derives.passes {phrase : Phrase} {tokens : List Token}
    (derives : phrase.Derives tokens expr) : ∀ token ∈ tokens, token.kind.isFinal = false := by
  have value : ∀ {token : Token} {expr : Expr}, Phrase.value.Derives [token] expr →
      token.kind.isFinal = false := by
    intro token expr derives
    cases derives with
    | null kind => rw [kind]; rfl
    | numeral names => rw [Phrase.index?_kind names]; rfl
  induction derives with
  | null kind => simpa using value (.null kind)
  | numeral names => simpa using value (.numeral names)
  | comparison _ kind _ first second =>
      simpa [or_imp, forall_and, kind] using ⟨first, second⟩
  | compared _ inductionHypothesis => exact inductionHypothesis
  | enclosed openKind _ closeKind inductionHypothesis =>
      simpa [or_imp, forall_and, openKind, closeKind, Kind.isFinal] using inductionHypothesis
  | single _ inductionHypothesis => exact inductionHypothesis
  | link _ kind _ first second =>
      simpa [or_imp, forall_and, kind] using ⟨first, second⟩
  | plain _ inductionHypothesis => exact inductionHypothesis
  | nested _ inductionHypothesis => exact inductionHypothesis
  | ifExpression wordKind openKind _ firstKind _ secondKind _ closeKind test thenBranch
      elseBranch =>
      simpa [or_imp, forall_and, wordKind, openKind, firstKind, secondKind, closeKind,
        Kind.isFinal] using ⟨test, thenBranch, elseBranch⟩
  | statement _ inductionHypothesis => exact inductionHypothesis

/-! ## From the grammar to the reader -/

/-- A text that is read to its end as a statement is accepted with its tree, also
where input might trail. -/
theorem parse_of_reads {tokens : List Token} {final : Token} {finish : Cursor} (lenient : Bool)
    (reads : (Cursor.atStart text).Reads (tokens ++ [final]) finish)
    (ends : final.kind = .endOfText) (derives : Phrase.ifExpression.Derives tokens expr) :
    parse lenient text = .ok expr := by
  cases lenient with
  | false =>
      obtain ⟨value, outcome, -, body, last, same, -, derives'⟩ :=
        (answers_text text).ok_of_reads (fun _ _ => WholeStatement.runs) reads
          (WholeStatement.runs ⟨tokens, final, rfl, ends, derives⟩)
      obtain ⟨rfl, -⟩ := List.append_inj' same rfl
      rw [derives.unique derives']
      exact outcome
  | true =>
      obtain ⟨middle, body, -⟩ := reads.split
      obtain ⟨value, outcome, -, derives'⟩ :=
        (answers_lenientText text).ok_of_reads (fun _ _ derives => derives.runs) body derives.runs
      rw [derives.unique derives']
      exact outcome

/-! ## The accepted texts -/

theorem reads_of_tokensOf {tokens : List Token} (listed : tokensOf text = .ok tokens) :
    ∃ finish, (Cursor.atStart text).Reads tokens finish :=
  Cursor.reads_of_tokensWithin (Cursor.atStart_valid text) (Nat.le_refl _) listed

theorem tokensOf_of_reads {tokens : List Token} {final : Token} {finish : Cursor}
    (reads : (Cursor.atStart text).Reads (tokens ++ [final]) finish)
    (ends : final.kind = .endOfText) (derives : Phrase.ifExpression.Derives tokens expr) :
    tokensOf text = .ok (tokens ++ [final]) := by
  have isFinal : final.kind.isFinal = true := by
    rw [ends]
    rfl
  exact Cursor.tokensWithin_of_reads (Cursor.atStart_valid text) (Nat.le_refl _) reads
    derives.passes isFinal

/-- The strict reader accepts a text with a tree if and only if the tokens of the
text are a statement with this tree before the end of the text. The tokens
determine the tree, and every tree that is read is a statement tree. -/
theorem parse_accepts_exactly_statements :
    (∀ (text : List Char) (expr : Expr), parse false text = .ok expr ↔
      ∃ tokens final, tokensOf text = .ok (tokens ++ [final]) ∧ final.kind = .endOfText ∧
        Phrase.statement.Derives tokens expr) ∧
    (∀ (tokens : List Token) (left right : Expr), Phrase.statement.Derives tokens left →
      Phrase.statement.Derives tokens right → left = right) ∧
    ∀ (text : List Char) (expr : Expr), parse false text = .ok expr →
      expr.isStatement = true := by
  refine ⟨?_, fun _ _ _ => Phrase.Derives.unique, fun _ _ => isStatement_of_parse⟩
  intro text expr
  constructor
  · intro accepted
    obtain ⟨tokens, final, finish, reads, ends, derives⟩ := reads_of_parse accepted
    exact ⟨tokens, final, tokensOf_of_reads reads ends derives, ends, .statement derives⟩
  · rintro ⟨tokens, final, listed, ends, whole⟩
    obtain ⟨finish, reads⟩ := reads_of_tokensOf listed
    cases whole with
    | statement derives => exact parse_of_reads false reads ends derives

/-- Of two conjunctions the first opens a parenthesis, and the first branch is again
an if-expression. -/
theorem nested_text_is_statement :
    ∃ tokens final,
      tokensOf "if((1=2or null<3)and 4>=5;if(6<>7;8;9);255)".toList = .ok (tokens ++ [final]) ∧
      final.kind = .endOfText ∧
      Phrase.statement.Derives tokens
        (.choose
          (.connect .and
            (.connect .or (.compare .eq (.slot 1) (.slot 2)) (.compare .lt .null (.slot 3)))
            (.compare .ge (.slot 4) (.slot 5)))
          (.choose (.compare .ne (.slot 6) (.slot 7)) (.slot 8) (.slot 9))
          (.slot 255)) :=
  (parse_accepts_exactly_statements.1 _ _).mp (by rfl)

end SlotLogic
