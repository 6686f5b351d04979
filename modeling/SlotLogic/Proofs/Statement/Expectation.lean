import SlotLogic.Proofs.Statement.Failure
import SlotLogic.Tree.Source

/-!
Contract: whatever a failure of the strict reader lists as expected could stand in the place
of the token that was found.

Owns: the kinds of tokens that a name in a report stands for, the tokens that demands take
where they refuse another one, and what may follow the tokens before a failure.

The demand that refuses a token is the first that is not skipped, and what it wanted is what
it takes. A token that it takes may also be a connective that one of the skipped demands takes
first. Either way the tokens before the failure go on with it.

Does not own: which of the tokens that could come are listed.
-/

set_option autoImplicit false

namespace SlotLogic

open SlotLogic.Text Demand

/-! ## Names -/

/-- Whether a name in a report stands for tokens of this kind. A comparison is named by its
characters, an operand and an if-expression by the tokens that begin them, and every kind by
its own name. -/
def Kind.isNamed (name : String) (kind : Kind) : Bool :=
  (name == "value" && kind.isValue) || (name == "if expression" && kind == .ifWord)
    || kind.comparison?.any (fun operator => operator.spelling == name.toList)
    || kind.name == name

/-- The end of the text is named by its own name only. -/
theorem Kind.name_of_endOfText_isNamed {name : String}
    (named : Kind.endOfText.isNamed name = true) : name = Kind.endOfText.name := by
  have own : (Kind.endOfText.name == name) = true := by
    simpa [isNamed, isValue, comparison?] using named
  exact (beq_iff_eq.mp own).symm

/-- Whether a token of this kind is what was wanted. -/
def Wanted.isMet (kind : Kind) : Wanted → Bool
  | .endOfText => kind == .endOfText
  | .token wanted => kind == wanted
  | .comparisonOperator => kind.comparison?.isSome
  | .operand => kind.isValue
  | .branch => kind.isValue || kind == .ifWord

theorem Kind.mem_all (kind : Kind) : kind ∈ Kind.all := by
  cases kind <;> decide

theorem Wanted.alternatives_ne_nil (wanted : Wanted) : wanted.alternatives ≠ [] := by
  cases wanted <;> simp [alternatives]

/-- Every name in a list of alternatives stands for some token, and for none but those that
were wanted. -/
theorem Wanted.named (wanted : Wanted) : ∀ name ∈ wanted.alternatives,
    (∃ kind ∈ Kind.all, kind.isNamed name = true) ∧
      ∀ kind ∈ Kind.all, kind.isNamed name = true → wanted.isMet kind = true := by
  have tokens : ∀ kind ∈ Kind.all, ∀ name ∈ (token kind).alternatives,
      (∃ kind ∈ Kind.all, kind.isNamed name = true) ∧
        ∀ other ∈ Kind.all, other.isNamed name = true → (token kind).isMet other = true := by
    decide
  cases wanted with
  | token kind => exact tokens kind kind.mem_all
  | endOfText | comparisonOperator | operand | branch => decide

/-! ## What is taken instead -/

namespace Demand

variable {demand : Demand} {demands : List Demand} {kind other : Kind} {wanted : Wanted}

/-- A demand that refuses a token takes what it wanted instead. -/
theorem taken_of_react_refused (refuses : demand.react kind = .refused wanted)
    (met : wanted.isMet other = true) : ∃ later, demand.react other = .taken later := by
  cases demand with
  | token needed =>
      simp only [react] at refuses
      split at refuses <;> cases refuses
      exact ⟨[], if_pos (beq_iff_eq.mp met)⟩
  | operand =>
      simp only [react] at refuses
      split at refuses <;> cases refuses
      exact ⟨[], if_pos met⟩
  | comparisonOperator =>
      simp only [react] at refuses
      split at refuses <;> cases refuses
      exact ⟨[], if_pos met⟩
  | conjunction =>
      simp only [react] at refuses
      split at refuses
      · cases refuses
      · split at refuses <;> cases refuses
        cases beq_iff_eq.mp met
        exact ⟨_, rfl⟩
  | more operator =>
      simp only [react] at refuses
      split at refuses <;> cases refuses
  | branch =>
      simp only [react] at refuses
      split at refuses
      · cases refuses
      · split at refuses <;> cases refuses
        simp only [Wanted.isMet, Bool.or_eq_true, beq_iff_eq] at met
        rcases met with isValue | rfl
        · exact ⟨[], if_pos isValue⟩
        · exact ⟨ifDemands, rfl⟩
  | endOfText =>
      simp only [react] at refuses
      split at refuses <;> cases refuses
      exact ⟨[], if_pos (beq_iff_eq.mp met)⟩

/-- Demands that refuse a token take what they wanted instead. -/
theorem taken_of_refused (refuses : reactAll demands kind = .refused wanted)
    (met : wanted.isMet other = true) : ∃ later, reactAll demands other = .taken later := by
  induction demands with
  | nil => cases refuses
  | cons demand rest inductionHypothesis =>
      rw [reactAll] at refuses
      cases here : demand.react kind with
      | taken later =>
          rw [here] at refuses
          cases refuses
      | skipped =>
          rw [here] at refuses
          obtain ⟨operator, rfl⟩ := eq_more_of_skipped here
          -- The other token may be the connective of the chain that ended here.
          rw [reactAll_more]
          by_cases same : other = operator.kind
          · rw [if_pos same]
            exact ⟨_, rfl⟩
          · rw [if_neg same]
            exact inductionHypothesis refuses
      | refused wanted' =>
          rw [here] at refuses
          cases refuses
          obtain ⟨later, taken⟩ := taken_of_react_refused here met
          rw [reactAll, taken]
          exact ⟨_, rfl⟩

end Demand

/-! ## What goes on -/

namespace Phrase

variable {word : List Kind} {rest later : List Demand} {kind : Kind}

/-- No kind of a word that begins a statement is final. -/
theorem Begins.passes (begins : statement.Begins word) : ∀ kind ∈ word, kind.isFinal = false := by
  obtain ⟨more, tokens, expr, derives, kinds⟩ := begins
  intro kind member
  have inside : kind ∈ tokens.map Token.kind := by
    rw [kinds]
    exact List.mem_append_left _ member
  obtain ⟨token, inTokens, rfl⟩ := List.mem_map.mp inside
  exact derives.passes token inTokens

/-- What can be run through in front of the end of the text is a statement, and with any other
token that is taken the word begins one. -/
theorem goesOn_of_taken (runs : run textDemands word = some rest)
    (taken : reactAll rest kind = .taken later) :
    (kind = .endOfText → IsSentence word) ∧
      (kind ≠ .endOfText → statement.Begins (word ++ [kind])) := by
  have longer : run textDemands (word ++ [kind]) = some later := by
    rw [run_append, runs]
    exact run_cons.mpr ⟨later, taken, rfl⟩
  -- Whatever meets the rest completes the word to a statement and the end of the text.
  obtain ⟨kinds, admits⟩ := exists_admitsAll later
  obtain ⟨sentence, last, same, sentenceAdmits, ends⟩ :=
    admitsAll_split _ _ (admitsAll_of_run longer admits)
  cases admitsAll_singleton ends
  have spells := spells_statement sentenceAdmits
  rcases List.eq_nil_or_concat kinds with rfl | ⟨more, last, rfl⟩
  · rw [List.append_nil] at same
    obtain ⟨rfl, ending⟩ := List.append_inj' same rfl
    cases ending
    exact ⟨fun _ => spells, fun other => absurd rfl other⟩
  · rw [List.concat_eq_append, ← List.append_assoc] at same
    obtain ⟨rfl, -⟩ := List.append_inj' same rfl
    have begins : statement.Begins (word ++ [kind]) := ⟨more, spells⟩
    refine ⟨?_, fun _ => begins⟩
    rintro rfl
    cases begins.passes .endOfText (by simp)

end Phrase

/-! ## Failures -/

/-- What a name in a report says of the tokens before the failure. The end of the text says
that they are a whole statement, and any other name stands for some tokens and says that a
statement may go on with each of them. -/
def GoesOnWith (word : List Kind) (name : String) : Prop :=
  if name = Kind.endOfText.name then IsSentence word
  else (∃ kind : Kind, kind.isNamed name = true) ∧
    ∀ kind : Kind, kind.isNamed name = true → Phrase.statement.Begins (word ++ [kind])

theorem goesOnWith_of_refused {word : List Kind} {rest : List Demand} {kind : Kind}
    {wanted : Wanted} {name : String} (runs : run Phrase.textDemands word = some rest)
    (refuses : reactAll rest kind = .refused wanted) (listed : name ∈ wanted.alternatives) :
    GoesOnWith word name := by
  obtain ⟨⟨first, -, firstNamed⟩, met⟩ := wanted.named name listed
  have goesOn : ∀ other : Kind, other.isNamed name = true →
      (other = .endOfText → IsSentence word) ∧
        (other ≠ .endOfText → Phrase.statement.Begins (word ++ [other])) := by
    intro other named
    obtain ⟨later, taken⟩ := taken_of_refused refuses (met other other.mem_all named)
    exact Phrase.goesOn_of_taken runs taken
  unfold GoesOnWith
  split
  · rename_i ends
    subst ends
    exact (goesOn .endOfText (by decide)).1 rfl
  · rename_i other
    refine ⟨⟨first, firstNamed⟩, fun kind named => (goesOn kind named).2 ?_⟩
    rintro rfl
    exact other (Kind.name_of_endOfText_isNamed named)

/-- Everything that a failure of the strict reader lists as expected could come next. The
failure is at a token of the text, the list is not empty, and the tokens before the failure go
on with whatever a name in the list stands for. -/
theorem expected_could_come {text : List Char} {failure : Failure}
    (fails : parse false text = .error (.failure failure)) :
    ∃ (earlier : List Token) (found : Token) (finish : Cursor),
      (Cursor.atStart text).Reads (earlier ++ [found]) finish ∧
      failure.report.position = found.start ∧
      (∀ token ∈ earlier, token.start < found.start) ∧
      failure.report.expected ≠ [] ∧
      ∀ name ∈ failure.report.expected, GoesOnWith (earlier.map Token.kind) name := by
  obtain ⟨earlier, later, rest, reads, taken, runs, refuses⟩ := (answers_text text).refused fails
  have valid := Cursor.atStart_valid text
  have passes : ∀ token ∈ earlier, token.kind.isFinal = false := fun token member =>
    (Phrase.begins_of_run runs refuses).passes _ (List.mem_map_of_mem member)
  refine ⟨earlier, failure.found, _, reads.append (.one taken), rfl, ?_,
    failure.wanted.alternatives_ne_nil, fun name => goesOnWith_of_refused runs refuses⟩
  intro token member
  exact Nat.lt_of_lt_of_le (reads.starts_before valid passes token member)
    (Cursor.next_start (reads.leads valid).valid taken)

/-- At the end of a text in which a nested branch is missing, `null`, a numeral and `if` could
come. -/
theorem missing_branch_expected :
    parse false "if((1=2)or null<3;if(4>5;".toList =
        .error (.failure ⟨.branch, ⟨.endOfText, [], 25⟩⟩) ∧
      (∃ (earlier : List Token) (found : Token) (finish : Cursor),
        (Cursor.atStart "if((1=2)or null<3;if(4>5;".toList).Reads (earlier ++ [found]) finish ∧
        (25 : Int) = found.start ∧ (∀ token ∈ earlier, token.start < found.start) ∧
        ["value", "if expression"] ≠ [] ∧
        ∀ name ∈ ["value", "if expression"], GoesOnWith (earlier.map Token.kind) name) := by
  have fails : parse false "if((1=2)or null<3;if(4>5;".toList =
      .error (.failure ⟨.branch, ⟨.endOfText, [], 25⟩⟩) := by
    rfl
  exact ⟨fails, expected_could_come fails⟩

end SlotLogic
