import SlotLogic.Proofs.Grammar.Demand

/-!
Contract: what was run through can be completed to a phrase.

Owns: the words that a demand admits, the step from the words of what is left to
the words of what was demanded, and the beginnings of statements.

The words of `more` are given by what they do: they are those that extend every
chain to a chain. So no list of further operands has to be described.

Does not own: trees.
-/

set_option autoImplicit false

namespace SlotLogic

/-! ## Words of phrases -/

namespace Phrase

variable {kinds : List Kind}

/-- A token of a kind, of which nothing else matters. -/
def sample (kind : Kind) : Token :=
  ⟨kind, [], 0⟩

theorem spells_value {kind : Kind} (isValue : kind.isValue = true) : value.Spells [kind] := by
  simp only [Kind.isValue, Bool.or_eq_true, beq_iff_eq] at isValue
  rcases isValue with rfl | rfl
  · exact ⟨[sample .nullWord], _, .null rfl, rfl⟩
  · exact ⟨[sample .number], _, .numeral rfl, rfl⟩

theorem spells_comparison {left right : List Kind} (operator : Comparison)
    (first : value.Spells left) (second : value.Spells right) :
    comparison.Spells (left ++ operator.kind :: right) := by
  obtain ⟨leftTokens, _, derivesLeft, rfl⟩ := first
  obtain ⟨rightTokens, _, derivesRight, rfl⟩ := second
  refine ⟨leftTokens ++ sample operator.kind :: rightTokens, _,
    .comparison derivesLeft rfl derivesRight, ?_⟩
  simp [sample]

theorem spells_enclosed (inner : condition.Spells kinds) :
    conjunction.Spells (.openParen :: (kinds ++ [.closeParen])) := by
  obtain ⟨tokens, _, derives, rfl⟩ := inner
  refine ⟨sample .openParen :: (tokens ++ [sample .closeParen]), _,
    .enclosed rfl derives rfl, ?_⟩
  simp [sample]

theorem spells_link {left right : List Kind} {operator : Connective}
    (first : (chain operator).Spells left) (second : operator.operand.Spells right) :
    (chain operator).Spells (left ++ operator.kind :: right) := by
  obtain ⟨leftTokens, _, derivesLeft, rfl⟩ := first
  obtain ⟨rightTokens, _, derivesRight, rfl⟩ := second
  refine ⟨leftTokens ++ sample operator.kind :: rightTokens, _,
    .link derivesLeft rfl derivesRight, ?_⟩
  simp [sample]

theorem spells_ifExpression {test consequent alternative : List Kind}
    (first : condition.Spells test) (second : expression.Spells consequent)
    (third : expression.Spells alternative) :
    ifExpression.Spells (.ifWord :: .openParen :: (test ++ .semicolon :: (consequent ++
      .semicolon :: (alternative ++ [.closeParen])))) := by
  obtain ⟨testTokens, _, derivesTest, rfl⟩ := first
  obtain ⟨thenTokens, _, derivesThen, rfl⟩ := second
  obtain ⟨elseTokens, _, derivesElse, rfl⟩ := third
  refine ⟨sample .ifWord :: sample .openParen :: (testTokens ++ sample .semicolon ::
    (thenTokens ++ sample .semicolon :: (elseTokens ++ [sample .closeParen]))), _,
    .ifExpression rfl rfl derivesTest rfl derivesThen rfl derivesElse rfl, ?_⟩
  simp [sample]

end Phrase

/-! ## Words of demands -/

namespace Demand

open Phrase

/-- The words that meet a demand. -/
def Admits : Demand → List Kind → Prop
  | .token kind, kinds => kinds = [kind]
  | .operand, kinds => value.Spells kinds
  | .comparisonOperator, kinds => ∃ operator : Comparison, kinds = [operator.kind]
  | .conjunction, kinds => Phrase.conjunction.Spells kinds
  | .more operator, kinds =>
    ∀ leading, (chain operator).Spells leading → (chain operator).Spells (leading ++ kinds)
  | .branch, kinds => expression.Spells kinds
  | .endOfText, kinds => kinds = [.endOfText]

/-- The words that meet a list of demands one after the other. -/
def AdmitsAll : List Demand → List Kind → Prop
  | [], kinds => kinds = []
  | demand :: rest, kinds =>
    ∃ first second, kinds = first ++ second ∧ demand.Admits first ∧ AdmitsAll rest second

theorem admitsAll_split (upper lower : List Demand) {kinds : List Kind}
    (admits : AdmitsAll (upper ++ lower) kinds) :
    ∃ first second, kinds = first ++ second ∧ AdmitsAll upper first ∧ AdmitsAll lower second := by
  induction upper generalizing kinds with
  | nil => exact ⟨[], kinds, rfl, rfl, admits⟩
  | cons demand rest inductionHypothesis =>
      obtain ⟨here, later, rfl, meets, others⟩ := admits
      obtain ⟨first, second, rfl, above, below⟩ := inductionHypothesis others
      exact ⟨here ++ first, second, (List.append_assoc ..).symm, ⟨here, first, rfl, meets, above⟩,
        below⟩

theorem admitsAll_singleton {demand : Demand} {kinds : List Kind}
    (admits : AdmitsAll [demand] kinds) : demand.Admits kinds := by
  obtain ⟨first, second, rfl, meets, rfl⟩ := admits
  rw [List.append_nil]
  exact meets

/-- A word of an operand and of what may follow it is a word of the chain. -/
theorem spells_chain {operator : Connective} {kinds : List Kind}
    (operand : ∀ word, AdmitsAll operator.operand.demands word → operator.operand.Spells word)
    (admits : AdmitsAll (chain operator).demands kinds) : (chain operator).Spells kinds := by
  rw [demands_chain] at admits
  obtain ⟨first, second, rfl, leading, following⟩ := admitsAll_split _ _ admits
  obtain ⟨tokens, expr, derives, rfl⟩ := operand first leading
  exact admitsAll_singleton following _ ⟨tokens, expr, .single derives, rfl⟩

theorem spells_operand (operator : Connective) {kinds : List Kind}
    (admits : AdmitsAll operator.operand.demands kinds) : operator.operand.Spells kinds := by
  have conjunctions : ∀ word, AdmitsAll Phrase.conjunction.demands word →
      Phrase.conjunction.Spells word := fun _ => admitsAll_singleton
  cases operator with
  | and => exact conjunctions kinds admits
  | or => exact spells_chain conjunctions admits

theorem spells_condition {kinds : List Kind} (admits : AdmitsAll condition.demands kinds) :
    condition.Spells kinds :=
  spells_chain (fun _ => spells_operand .or) admits

theorem spells_if {kinds : List Kind} (admits : AdmitsAll ifDemands kinds) :
    ifExpression.Spells (.ifWord :: kinds) := by
  obtain ⟨_, afterOpen, rfl, rfl, admits⟩ := admits
  obtain ⟨test, _, rfl, testAdmits, _, _, rfl, rfl, _, _, rfl, consequent, _, _, rfl, rfl,
    _, _, rfl, alternative, _, _, rfl, rfl, rfl⟩ :=
    admitsAll_split condition.demands _ admits
  exact spells_ifExpression (spells_condition testAdmits) consequent alternative

/-! ## One token -/

/-- A demand that takes a token admits it before whatever meets its successors. -/
theorem admits_of_taken {demand : Demand} {kind : Kind} {later : List Demand} {kinds : List Kind}
    (taken : demand.react kind = .taken later) (admits : AdmitsAll later kinds) :
    demand.Admits (kind :: kinds) := by
  cases demand with
  | token wanted =>
      simp only [react] at taken
      split at taken <;> cases taken
      rename_i same
      cases admits
      rw [same]
      rfl
  | operand =>
      simp only [react] at taken
      split at taken <;> cases taken
      rename_i isValue
      cases admits
      exact spells_value isValue
  | comparisonOperator =>
      simp only [react] at taken
      split at taken <;> cases taken
      rename_i writes
      cases admits
      obtain ⟨operator, found⟩ := Option.isSome_iff_exists.mp writes
      exact ⟨operator, by rw [kind_of_comparison? found]⟩
  | conjunction =>
      simp only [react] at taken
      split at taken
      · rename_i isValue
        cases taken
        obtain ⟨_, second, rfl, ⟨operator, rfl⟩, right⟩ := admits
        obtain ⟨tokens, expr, derives, same⟩ :=
          spells_comparison operator (spells_value isValue) (admitsAll_singleton right)
        exact ⟨tokens, expr, .compared derives, same⟩
      · split at taken <;> cases taken
        rename_i opens
        obtain ⟨inner, closing, rfl, innerAdmits, closes⟩ := admitsAll_split _ _ admits
        cases admitsAll_singleton closes
        rw [opens]
        exact spells_enclosed (spells_condition innerAdmits)
  | more operator =>
      simp only [react] at taken
      split at taken <;> cases taken
      rename_i same
      obtain ⟨first, second, rfl, operand, further⟩ := admitsAll_split _ _ admits
      intro leading chain
      rw [same, ← List.cons_append, ← List.append_assoc]
      exact admitsAll_singleton further _ (spells_link chain (spells_operand operator operand))
  | branch =>
      simp only [react] at taken
      split at taken
      · rename_i isValue
        cases taken
        cases admits
        obtain ⟨tokens, expr, derives, same⟩ := spells_value isValue
        exact ⟨tokens, expr, .plain derives, same⟩
      · split at taken <;> cases taken
        rename_i isIf
        rw [isIf]
        obtain ⟨tokens, expr, derives, same⟩ := spells_if admits
        exact ⟨tokens, expr, .nested derives, same⟩
  | endOfText =>
      simp only [react] at taken
      split at taken <;> cases taken
      rename_i ends
      cases admits
      rw [ends]
      rfl

/-- Only a chain that may go on is skipped, and nothing of it needs to come. -/
theorem admits_of_skipped {demand : Demand} {kind : Kind}
    (skipped : demand.react kind = .skipped) : demand.Admits [] := by
  obtain ⟨operator, rfl⟩ := eq_more_of_skipped skipped
  intro leading chain
  rw [List.append_nil]
  exact chain

theorem admitsAll_of_taken {demands later : List Demand} {kind : Kind} {kinds : List Kind}
    (taken : reactAll demands kind = .taken later) (admits : AdmitsAll later kinds) :
    AdmitsAll demands (kind :: kinds) := by
  induction demands with
  | nil => cases taken
  | cons demand rest inductionHypothesis =>
      rw [reactAll] at taken
      split at taken
      · rename_i successors reaction
        cases taken
        obtain ⟨first, second, rfl, above, below⟩ := admitsAll_split _ _ admits
        exact ⟨kind :: first, second, rfl, admits_of_taken reaction above, below⟩
      · rename_i reaction
        exact ⟨[], kind :: kinds, rfl, admits_of_skipped reaction, inductionHypothesis taken⟩
      · cases taken

/-! ## Whole words -/

/-- A word that is run through goes on with whatever meets what is left. -/
theorem admitsAll_of_run {demands rest : List Demand} {word kinds : List Kind}
    (runs : run demands word = some rest) (admits : AdmitsAll rest kinds) :
    AdmitsAll demands (word ++ kinds) := by
  induction word generalizing demands with
  | nil =>
      cases runs
      exact admits
  | cons kind word inductionHypothesis =>
      obtain ⟨later, taken, after⟩ := run_cons.mp runs
      exact admitsAll_of_taken taken (inductionHypothesis after)

/-- Every list of demands can be met. -/
theorem exists_admitsAll (demands : List Demand) : ∃ kinds, AdmitsAll demands kinds := by
  have values : value.Spells [.nullWord] := spells_value rfl
  induction demands with
  | nil => exact ⟨[], rfl⟩
  | cons demand rest inductionHypothesis =>
      obtain ⟨later, admits⟩ := inductionHypothesis
      have here : ∃ kinds, demand.Admits kinds := by
        cases demand with
        | token kind => exact ⟨[kind], rfl⟩
        | operand => exact ⟨_, values⟩
        | comparisonOperator => exact ⟨_, .eq, rfl⟩
        | conjunction =>
            obtain ⟨tokens, expr, derives, -⟩ := spells_comparison .eq values values
            exact ⟨_, tokens, expr, .compared derives, rfl⟩
        | more operator =>
            have skipped : (more operator).react .endOfText = .skipped := by
              cases operator <;> rfl
            exact ⟨[], admits_of_skipped skipped⟩
        | branch =>
            obtain ⟨tokens, expr, derives, -⟩ := values
            exact ⟨_, tokens, expr, .plain derives, rfl⟩
        | endOfText => exact ⟨_, rfl⟩
      obtain ⟨kinds, meets⟩ := here
      exact ⟨kinds ++ later, kinds, later, rfl, meets, admits⟩

end Demand

/-! ## Beginnings of statements -/

namespace Phrase

open Demand

theorem spells_statement {kinds : List Kind} (admits : AdmitsAll statement.demands kinds) :
    statement.Spells kinds := by
  obtain ⟨first, afterFirst, rfl, rfl, ifAdmits⟩ := admits
  obtain ⟨tokens, expr, derives, kindsEq⟩ := spells_if ifAdmits
  exact ⟨tokens, expr, .statement derives, kindsEq⟩

variable {word : List Kind} {rest : List Demand}

/-- A word that is run through, and after which something has yet to come, begins a
statement. -/
theorem begins_of_unmet (runs : run textDemands word = some rest) (unmet : rest ≠ []) :
    statement.Begins word := by
  obtain ⟨kinds, admits⟩ := exists_admitsAll rest
  have whole := admitsAll_of_run runs admits
  obtain ⟨sentence, last, same, sentenceAdmits, ends⟩ := admitsAll_split _ _ whole
  cases admitsAll_singleton ends
  have spells := spells_statement sentenceAdmits
  -- The completion is not empty, so the word ends before the end of the text.
  have nonempty : kinds ≠ [] := by
    rintro rfl
    obtain ⟨tokens, expr, derives, rfl⟩ := spells
    have ends : (sample .endOfText).kind = .endOfText := rfl
    have runsAll := derives.runs_text ends
    rw [List.map_append, List.map_singleton] at runsAll
    rw [List.append_nil] at same
    rw [same] at runs
    exact unmet (Option.some.inj (runs.symm.trans runsAll))
  refine ⟨kinds.dropLast, ?_⟩
  have cut : word ++ kinds.dropLast = sentence := by
    rw [← List.dropLast_append_of_ne_nil nonempty, same, List.dropLast_concat]
  rw [cut]
  exact spells

/-- A word that is run through, and after which a token is refused, begins a
statement. -/
theorem begins_of_run {kind : Kind} {wanted : Wanted} (runs : run textDemands word = some rest)
    (refused : reactAll rest kind = .refused wanted) : statement.Begins word := by
  refine begins_of_unmet runs ?_
  rintro rfl
  cases refused

/-- What begins a statement is run through, and the end of the text at least has yet to
come. -/
theorem unmet_of_begins (begins : statement.Begins word) :
    ∃ rest, run textDemands word = some rest ∧ rest ≠ [] := by
  obtain ⟨more, tokens, expr, derives, kinds⟩ := begins
  have whole : run textDemands (tokens.map Token.kind) = some [.endOfText] :=
    run_over [.endOfText] derives.runs
  rw [kinds] at whole
  obtain ⟨middle, runs, later⟩ := run_of_append whole
  refine ⟨middle, runs, ?_⟩
  rintro rfl
  cases more <;> cases later

/-- A word is run through by the demands of a statement alone, with something yet to come,
exactly if it begins a statement and is none. -/
theorem unmet_iff_begins :
    (∃ rest, run statement.demands word = some rest ∧ rest ≠ []) ↔
      statement.Begins word ∧ ¬IsSentence word := by
  constructor
  · rintro ⟨rest, runs, unmet⟩
    obtain ⟨kinds, admits⟩ := exists_admitsAll rest
    refine ⟨⟨kinds, spells_statement (admitsAll_of_run runs admits)⟩, ?_⟩
    rintro ⟨tokens, expr, derives, rfl⟩
    exact unmet (Option.some.inj (runs.symm.trans derives.runs))
  · rintro ⟨⟨more, tokens, expr, derives, kinds⟩, other⟩
    have whole := derives.runs
    rw [kinds] at whole
    obtain ⟨middle, runs, later⟩ := run_of_append whole
    refine ⟨middle, runs, ?_⟩
    rintro rfl
    have nothing := eq_nil_of_run_append runs whole
    rw [nothing, List.append_nil] at kinds
    exact other ⟨tokens, expr, derives, kinds⟩

end Phrase

end SlotLogic
