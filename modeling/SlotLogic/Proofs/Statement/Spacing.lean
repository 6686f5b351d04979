import SlotLogic.Proofs.Statement.Acceptance
import SlotLogic.Proofs.Token.Spacing

/-!
Contract: blanks between the tokens of a text change nothing of what is read from it but
places.

Owns: phrases over tokens at other places, the answers of a rule on a text with blanks put
in, and the outcome of both readers there.

A reader compares failures by their places only to find the one that got further. What its
demands say of a failure has no places in it: the token that is refused, and what was wanted
there. So one reading of the tokens decides the outcome for all spacings of a text.

Does not own: which blanks leave the tokens of a text as they are.
-/

set_option autoImplicit false

namespace SlotLogic

open SlotLogic.Text Demand

/-! ## Tokens at other places -/

/-- A phrase depends on the kinds and the indices of its tokens only. -/
theorem Phrase.Derives.map {phrase : Phrase} {tokens : List Token} {expr : Expr}
    {change : Token → Token} (kinds : ∀ token, (change token).kind = token.kind)
    (indices : ∀ token, (change token).index? = token.index?)
    (derives : phrase.Derives tokens expr) : phrase.Derives (tokens.map change) expr := by
  induction derives with
  | null kind => exact .null ((kinds _).trans kind)
  | numeral names => exact .numeral ((indices _).trans names)
  | comparison _ kind _ first second =>
      rw [List.map_append, List.map_cons]
      exact .comparison first ((kinds _).trans kind) second
  | compared _ inductionHypothesis => exact .compared inductionHypothesis
  | enclosed openKind _ closeKind inductionHypothesis =>
      rw [List.map_cons, List.map_append, List.map_singleton]
      exact .enclosed ((kinds _).trans openKind) inductionHypothesis ((kinds _).trans closeKind)
  | single _ inductionHypothesis => exact .single inductionHypothesis
  | link _ kind _ first second =>
      rw [List.map_append, List.map_cons]
      exact .link first ((kinds _).trans kind) second
  | plain _ inductionHypothesis => exact .plain inductionHypothesis
  | nested _ inductionHypothesis => exact .nested inductionHypothesis
  | ifExpression wordKind openKind _ firstKind _ secondKind _ closeKind test thenBranch
      elseBranch =>
      simp only [List.map_cons, List.map_append, List.map_nil]
      exact .ifExpression ((kinds _).trans wordKind) ((kinds _).trans openKind) test
        ((kinds _).trans firstKind) thenBranch ((kinds _).trans secondKind) elseBranch
        ((kinds _).trans closeKind)
  | statement _ inductionHypothesis => exact .statement inductionHypothesis

namespace Spacing

variable (spacing : Spacing)

/-- A failure at the new place of its token. -/
def failure (text : List Char) (failure : Failure) : Failure :=
  { failure with found := spacing.token text failure.found }

/-- A fault at its new place. -/
def fault (text : List Char) : ReadFault → ReadFault
  | .failure failure => .failure (spacing.failure text failure)
  | .overlong numeral => .overlong numeral

/-- Whatever is read from a cursor is spared, and some token comes next behind it. -/
structure SparesAll (cursor : Cursor) : Prop where
  read : ∀ {tokens later}, cursor.Reads tokens later → ∀ token ∈ tokens, spacing.Spares token
  next : ∀ {tokens later}, cursor.Reads tokens later → ∃ token, later.next.1 = .ok token

end Spacing

/-! ## Answers in both texts -/

section

variable {spacing : Spacing} {cursor wide : Cursor} {demands : List Demand}
  {Holds : List Token → Expr → Prop} {reply reply' : Reply Expr}

/-- Where a token comes next behind whatever is read, no numeral comes out. -/
theorem Answers.never_overlong (answers : Answers demands Holds cursor reply)
    (next : ∀ {tokens later}, cursor.Reads tokens later → ∃ token, later.next.1 = .ok token)
    (numeral : OverlongNumeral) : reply.outcome ≠ .error (.overlong numeral) := by
  intro outcome
  obtain ⟨read, later, -, reads, overlong, -⟩ := answers.meetsOverlong outcome
  obtain ⟨token, taken⟩ := next reads
  cases overlong.symm.trans taken

theorem Refused.spaced {failure : Failure} (keeps : cursor.KeepsStep spacing wide)
    (spared : spacing.SparesAll cursor) (refused : Refused demands cursor failure) :
    Refused demands wide (spacing.failure cursor.text failure) := by
  obtain ⟨tokens, later, rest, reads, found, runs, refuses⟩ := refused
  obtain ⟨later', readsWide, onward⟩ := keeps.reads reads (spared.read reads)
  have foundSpared : spacing.Spares failure.found :=
    spared.read (reads.append (.one found)) _ (by simp)
  obtain ⟨foundWide, -⟩ := onward.next found foundSpared
  rw [(reads.leads keeps.valid).text] at foundWide
  refine ⟨_, later', rest, readsWide, foundWide, ?_, refuses⟩
  rw [List.map_map]
  exact runs

/-- A rule that agrees with demands has one outcome in both texts, up to places. -/
theorem Answers.spaced (keeps : cursor.KeepsStep spacing wide)
    (spared : spacing.SparesAll cursor) (answers : Answers demands Holds cursor reply)
    (answersWide : Answers demands Holds wide reply')
    (closed : ∀ read value, Holds read value → run demands (read.map Token.kind) = some [])
    (moves : ∀ read value, Holds read value →
      Holds (read.map (spacing.token cursor.text)) value)
    (unique : ∀ read value other, Holds read value → Holds read other → value = other) :
    reply'.outcome = reply.outcome.mapError (spacing.fault cursor.text) := by
  cases outcome : reply.outcome with
  | ok value =>
      -- The same word is read again, and it has no other tree.
      obtain ⟨read, rest, reads, holds, -⟩ := answers.matched outcome
      obtain ⟨finish, readsWide, -⟩ := keeps.reads reads (spared.read reads)
      have moved := moves read value holds
      obtain ⟨other, same, -, holdsWide⟩ :=
        answersWide.ok_of_reads closed readsWide (closed _ _ moved)
      rw [same, unique _ _ _ moved holdsWide]
      rfl
  | error fault =>
      cases fault with
      | failure failure =>
          have refused := answers.refused outcome
          exact (answersWide.failure_iff closed).mpr (refused.spaced keeps spared)
      | overlong numeral => exact absurd outcome (answers.never_overlong spared.next numeral)

end

/-! ## Statements -/

section

variable {spacing : Spacing} {text : List Char} {tokens : List Token}

/-- On a text with a token list some token comes next behind whatever is read. -/
theorem taken_behind_reads {read : List Token} {later : Cursor}
    (listed : tokensOf text = .ok tokens) (reads : (Cursor.atStart text).Reads read later) :
    ∃ token, later.next.1 = .ok token := by
  obtain ⟨-, token, -, taken⟩ := listed_of_reads listed reads
  exact ⟨token, taken⟩

theorem sparesAll_of_tokens (listed : tokensOf text = .ok tokens)
    (spares : ∀ token ∈ tokens, spacing.Spares token) :
    spacing.SparesAll (Cursor.atStart text) where
  read reads token member := spares token ((listed_of_reads listed reads).1 token member)
  next reads := taken_behind_reads listed reads

/-- With blanks put in between the tokens a text has the tree that it had, or its failure at
the new place. -/
theorem parse_apply (lenient : Bool) (listed : tokensOf text = .ok tokens)
    (spares : ∀ token ∈ tokens, spacing.Spares token) :
    parse lenient (spacing.apply text) = (parse lenient text).mapError (spacing.fault text) := by
  have keeps := Cursor.keepsStep_start spacing text
  have spared := sparesAll_of_tokens listed spares
  have moves : ∀ read value, Phrase.ifExpression.Derives read value →
      Phrase.ifExpression.Derives (read.map (spacing.token text)) value :=
    fun _ _ derives => derives.map (fun _ => rfl) (fun _ => rfl)
  cases lenient with
  | true =>
      exact (answers_lenientText text).spaced keeps spared (answers_lenientText _)
        (fun _ _ derives => derives.runs) moves (fun _ _ _ => Phrase.Derives.unique)
  | false =>
      refine (answers_text text).spaced keeps spared (answers_text _)
        (fun _ _ => WholeStatement.runs) ?_ ?_
      · rintro read value ⟨body, final, rfl, ends, derives⟩
        exact ⟨body.map _, spacing.token text final, List.map_append, ends, moves _ _ derives⟩
      · rintro read value other ⟨body, final, rfl, -, derives⟩ ⟨body', final', same, -, derives'⟩
        obtain ⟨rfl, -⟩ := List.append_inj' same rfl
        exact derives.unique derives'

/-- On a text with a token list only failures come out, and they show a token of the list. -/
theorem fault_of_tokens {lenient : Bool} {fault : ReadFault} (listed : tokensOf text = .ok tokens)
    (fails : parse lenient text = .error fault) :
    ∃ failure, fault = .failure failure ∧ failure.found ∈ tokens := by
  have agrees : ∃ (demands : List Demand) (Holds : List Token → Expr → Prop),
      Answers demands Holds (Cursor.atStart text) (readStatement lenient text) := by
    cases lenient with
    | true => exact ⟨_, _, answers_lenientText text⟩
    | false => exact ⟨_, _, answers_text text⟩
  obtain ⟨demands, Holds, answers⟩ := agrees
  cases fault with
  | failure failure =>
      obtain ⟨read, later, rest, reads, taken, -⟩ := answers.refused fails
      exact ⟨failure, rfl, (listed_of_reads listed (reads.append (.one taken))).1 _ (by simp)⟩
  | overlong numeral =>
      exact absurd fails (answers.never_overlong (taken_behind_reads listed) numeral)

/-- Two texts with their token lists are read alike: with one tree, or with one report but for
its place, which is where the token of one number starts in either list. -/
inductive ReadAlike (lenient : Bool) (text text' : List Char) (tokens tokens' : List Token) :
    Prop where
  | tree (expr : Expr) (first : parse lenient text = .ok expr)
      (second : parse lenient text' = .ok expr)
  | failure (failure failure' : Failure) (number : Nat) (token token' : Token)
      (first : parse lenient text = .error (.failure failure))
      (second : parse lenient text' = .error (.failure failure'))
      (message : failure'.report.message = failure.report.message)
      (expected : failure'.report.expected = failure.report.expected)
      (found : failure'.report.found = failure.report.found)
      (here : tokens[number]? = some token) (place : failure.report.position = token.start)
      (there : tokens'[number]? = some token') (place' : failure'.report.position = token'.start)

/-- Blanks between tokens never matter. However blanks are put into a text, at its ends and
anywhere but inside a token, its tokens stay the same but for their places, and both readers
read it as before. -/
theorem blanks_between_tokens_never_matter (spacing : Spacing)
    (listed : tokensOf text = .ok tokens) (spares : ∀ token ∈ tokens, spacing.Spares token) :
    ∃ tokens', tokensOf (spacing.apply text) = .ok tokens' ∧
      tokens'.map Token.kind = tokens.map Token.kind ∧
      tokens'.map Token.text = tokens.map Token.text ∧
      tokens'.map Token.index? = tokens.map Token.index? ∧
      ∀ lenient, ReadAlike lenient text (spacing.apply text) tokens tokens' := by
  refine ⟨tokens.map (spacing.token text), tokensOf_apply spacing listed spares, ?_, ?_, ?_, ?_⟩
  · exact List.map_map
  · exact List.map_map
  · exact List.map_map
  · intro lenient
    have wide := parse_apply lenient listed spares
    cases outcome : parse lenient text with
    | ok expr =>
        rw [outcome] at wide
        exact .tree expr outcome wide
    | error fault =>
        rw [outcome] at wide
        obtain ⟨failure, rfl, member⟩ := fault_of_tokens listed outcome
        obtain ⟨number, here⟩ := List.mem_iff_getElem?.mp member
        have there : (tokens.map (spacing.token text))[number]? =
            some (spacing.token text failure.found) := by
          rw [List.getElem?_map, here]
          rfl
        exact .failure failure (spacing.failure text failure) number failure.found
          (spacing.token text failure.found) outcome wide rfl rfl rfl here rfl there rfl

end

/-- Two blanks at both ends of a text of six characters, and in front of three of its tokens. -/
def looseSpacing : Spacing where
  blanks place := if place ∈ [0, 2, 4, 5, 6] then [' ', '\n'] else []
  blank place := by
    split
    · simp [isBlank]
    · simp

/-- In both texts the comparison gets further than the parenthesis that could stand in its
place, and the semicolon is blamed where it stands. -/
theorem loose_comparison_fails_alike :
    looseSpacing.apply "if(1=;".toList = " \nif \n(1 \n= \n; \n".toList ∧
    ∃ tokens tokens', tokensOf "if(1=;".toList = .ok tokens ∧
      (∀ token ∈ tokens, looseSpacing.Spares token) ∧
      tokensOf " \nif \n(1 \n= \n; \n".toList = .ok tokens' ∧
      tokens'.map Token.text = tokens.map Token.text ∧
      (∀ lenient, ReadAlike lenient "if(1=;".toList " \nif \n(1 \n= \n; \n".toList tokens
        tokens') ∧
      parse false "if(1=;".toList = .error (.failure ⟨.operand, ⟨.semicolon, [';'], 5⟩⟩) ∧
      parse false " \nif \n(1 \n= \n; \n".toList =
        .error (.failure ⟨.operand, ⟨.semicolon, [';'], 13⟩⟩) := by
  have listed : tokensOf "if(1=;".toList =
      .ok [⟨.ifWord, ['i', 'f'], 0⟩, ⟨.openParen, ['('], 2⟩, ⟨.number, ['1'], 3⟩,
        ⟨.eq, ['='], 4⟩, ⟨.semicolon, [';'], 5⟩, ⟨.endOfText, [], 6⟩] := by rfl
  have spares : ∀ token ∈ ([⟨.ifWord, ['i', 'f'], 0⟩, ⟨.openParen, ['('], 2⟩,
      ⟨.number, ['1'], 3⟩, ⟨.eq, ['='], 4⟩, ⟨.semicolon, [';'], 5⟩, ⟨.endOfText, [], 6⟩] :
      List Token), looseSpacing.Spares token := by
    decide
  obtain ⟨tokens', again, -, texts, -, alike⟩ :=
    blanks_between_tokens_never_matter looseSpacing listed spares
  exact ⟨by rfl, _, tokens', listed, spares, again, texts, alike, by rfl, by rfl⟩

end SlotLogic
