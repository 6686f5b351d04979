import SlotLogic.Proofs.Grammar.Phrase
import SlotLogic.Rule.Statement

/-!
Contract: what a text must still bring, token by token.

Owns: demands, the reaction of a list of demands to the kind of one token, the
run of a list of demands over a word, and the two sides of its agreement with the
grammar: a derived phrase is run through, and what was run through can be
completed to a phrase.

A list of demands is a stack. The kind of the next token alone decides what
becomes of its top: the token is taken and the demand is replaced by what must
follow, the demand is skipped because nothing of it needs to come, or the token is
refused. So a refused token is one that no phrase goes on with.

Does not own: trees, and the rules that read.
-/

set_option autoImplicit false

namespace SlotLogic

/-- One thing that a text must still bring. -/
inductive Demand where
  | token (kind : Kind)
  | operand
  | comparisonOperator
  | conjunction
  | more (operator : Connective)
  | branch
  | endOfText
deriving DecidableEq, Repr

/-- What becomes of a demand at a token. -/
inductive Reaction where
  | taken (demands : List Demand)
  | skipped
  | refused (wanted : Wanted)
deriving DecidableEq, Repr

/-- Whether a token of this kind is a value. -/
def Kind.isValue (kind : Kind) : Bool :=
  kind == .nullWord || kind == .number

/-- What the rest of an if-expression demands after its first word. -/
def ifDemands : List Demand :=
  [.token .openParen, .conjunction, .more .and, .more .or, .token .semicolon, .branch,
    .token .semicolon, .branch, .token .closeParen]

/-- What a phrase demands. -/
def Phrase.demands : Phrase → List Demand
  | .value => [.operand]
  | .comparison => [.operand, .comparisonOperator, .operand]
  | .conjunction => [.conjunction]
  | .chain .and => [.conjunction, .more .and]
  | .chain .or => [.conjunction, .more .and, .more .or]
  | .expression => [.branch]
  | .ifExpression | .statement => .token .ifWord :: ifDemands

/-- What a statement and the end of the text after it demand. -/
def Phrase.textDemands : List Demand :=
  Phrase.statement.demands ++ [.endOfText]

/-- What may still follow at the end of a phrase. -/
def Phrase.tail : Phrase → List Demand
  | .chain .and => [.more .and]
  | .chain .or => [.more .and, .more .or]
  | _ => []

namespace Demand

/-- The reaction of one demand to the kind of the next token. -/
def react : Demand → Kind → Reaction
  | .token wanted, kind => if kind = wanted then .taken [] else .refused (.token wanted)
  | .operand, kind => if kind.isValue then .taken [] else .refused .operand
  | .comparisonOperator, kind =>
    if kind.comparison?.isSome then .taken [] else .refused .comparisonOperator
  | .conjunction, kind =>
    if kind.isValue then .taken [.comparisonOperator, .operand]
    else if kind = .openParen then .taken (Phrase.condition.demands ++ [.token .closeParen])
    else .refused (.token .openParen)
  | .more operator, kind =>
    if kind = operator.kind then .taken (operator.operand.demands ++ [.more operator])
    else .skipped
  | .branch, kind =>
    if kind.isValue then .taken []
    else if kind = .ifWord then .taken ifDemands
    else .refused .branch
  | .endOfText, kind => if kind = .endOfText then .taken [] else .refused .endOfText

/-- The reaction of a list of demands: the first that is not skipped decides. -/
def reactAll : List Demand → Kind → Reaction
  | [], _ => .skipped
  | demand :: rest, kind =>
    match demand.react kind with
    | .taken demands => .taken (demands ++ rest)
    | .skipped => reactAll rest kind
    | .refused wanted => .refused wanted

/-- What is left of a list of demands after a word, if every kind of it is taken. -/
def run : List Demand → List Kind → Option (List Demand)
  | demands, [] => some demands
  | demands, kind :: kinds =>
    match reactAll demands kind with
    | .taken later => run later kinds
    | .skipped | .refused _ => none

@[simp] theorem reactAll_nil (kind : Kind) : reactAll [] kind = .skipped :=
  rfl

@[simp] theorem reactAll_token (wanted kind : Kind) (lower : List Demand) :
    reactAll (.token wanted :: lower) kind =
      if kind = wanted then .taken lower else .refused (.token wanted) := by
  by_cases same : kind = wanted <;> simp [reactAll, react, same]

@[simp] theorem reactAll_operand (kind : Kind) (lower : List Demand) :
    reactAll (.operand :: lower) kind =
      if kind.isValue then .taken lower else .refused .operand := by
  by_cases isValue : kind.isValue = true <;> simp [reactAll, react, isValue]

@[simp] theorem reactAll_comparisonOperator (kind : Kind) (lower : List Demand) :
    reactAll (.comparisonOperator :: lower) kind =
      if kind.comparison?.isSome then .taken lower else .refused .comparisonOperator := by
  by_cases writes : kind.comparison?.isSome = true <;> simp [reactAll, react, writes]

@[simp] theorem reactAll_more (operator : Connective) (kind : Kind) (lower : List Demand) :
    reactAll (.more operator :: lower) kind =
      if kind = operator.kind then .taken (operator.operand.demands ++ .more operator :: lower)
      else reactAll lower kind := by
  by_cases same : kind = operator.kind <;> simp [reactAll, react, same]

/-- A word is run through if its first kind is taken and the others are run through
after it. -/
theorem run_cons {demands rest : List Demand} {kind : Kind} {kinds : List Kind} :
    run demands (kind :: kinds) = some rest ↔
      ∃ later, reactAll demands kind = .taken later ∧ run later kinds = some rest := by
  rw [run]
  cases reactAll demands kind with
  | taken later => simp
  | skipped => simp
  | refused wanted => simp

/-- Only a chain that may go on is skipped. -/
theorem eq_more_of_skipped {demand : Demand} {kind : Kind} (skipped : demand.react kind = .skipped) :
    ∃ operator, demand = .more operator := by
  cases demand with
  | more operator => exact ⟨operator, rfl⟩
  | token | operand | comparisonOperator | conjunction | branch | endOfText =>
      simp only [react] at skipped
      repeat' split at skipped
      all_goals cases skipped

/-! ## Demands below others -/

theorem reactAll_append (upper lower : List Demand) (kind : Kind) :
    reactAll (upper ++ lower) kind =
      match reactAll upper kind with
      | .taken demands => .taken (demands ++ lower)
      | .skipped => reactAll lower kind
      | .refused wanted => .refused wanted := by
  induction upper with
  | nil => rfl
  | cons demand rest inductionHypothesis =>
      rw [List.cons_append, reactAll, reactAll]
      cases demand.react kind with
      | taken demands => simp
      | skipped => exact inductionHypothesis
      | refused wanted => rfl

theorem run_append (demands : List Demand) (first second : List Kind) :
    run demands (first ++ second) = (run demands first).bind fun later => run later second := by
  induction first generalizing demands with
  | nil => rfl
  | cons kind kinds inductionHypothesis =>
      rw [List.cons_append, run, run]
      cases reactAll demands kind with
      | taken later => exact inductionHypothesis later
      | skipped => rfl
      | refused wanted => rfl

/-- A run is not disturbed by demands below. -/
theorem run_over {upper rest : List Demand} {kinds : List Kind} (lower : List Demand)
    (runs : run upper kinds = some rest) : run (upper ++ lower) kinds = some (rest ++ lower) := by
  induction kinds generalizing upper with
  | nil =>
      cases runs
      rfl
  | cons kind kinds inductionHypothesis =>
      obtain ⟨later, taken, after⟩ := run_cons.mp runs
      apply run_cons.mpr
      refine ⟨later ++ lower, ?_, inductionHypothesis after⟩
      rw [reactAll_append, taken]

/-- Every beginning of a word that is run through is run through. -/
theorem run_of_append {demands rest : List Demand} {first second : List Kind}
    (runs : run demands (first ++ second) = some rest) :
    ∃ middle, run demands first = some middle ∧ run middle second = some rest := by
  rw [run_append] at runs
  exact Option.bind_eq_some_iff.mp runs

/-- No word that goes on with a refused token is run through. -/
theorem not_run_of_refused {demands rest last : List Demand} {word more : List Kind} {kind : Kind}
    {wanted : Wanted} (runs : run demands word = some rest)
    (refused : reactAll rest kind = .refused wanted) :
    run demands (word ++ kind :: more) ≠ some last := by
  rw [run_append, runs, Option.bind_some, run, refused]
  simp

/-- A word after which nothing is demanded does not go on. -/
theorem eq_nil_of_run_append {demands rest : List Demand} {first second : List Kind}
    (whole : run demands first = some []) (longer : run demands (first ++ second) = some rest) :
    second = [] := by
  rw [run_append, whole, Option.bind_some] at longer
  cases second with
  | nil => rfl
  | cons kind kinds => cases longer

end Demand

/-! ## Derived phrases are run through -/

namespace Phrase

open Demand

theorem demands_chain (operator : Connective) :
    (chain operator).demands = operator.operand.demands ++ [.more operator] := by
  cases operator <;> rfl

theorem tail_chain (operator : Connective) :
    (chain operator).tail = operator.operand.tail ++ [.more operator] := by
  cases operator <;> rfl

/-- What may still follow an operand is skipped at the connective of its chain. -/
theorem operand_tail_skipped (operator : Connective) :
    reactAll operator.operand.tail operator.kind = .skipped := by
  cases operator <;> rfl

theorem index?_kind {token : Token} {index : Nat} (names : token.index? = some index) :
    token.kind = .number := by
  unfold Token.index? at names
  split at names
  · assumption
  · cases names

theorem comparison?_kind (operator : Comparison) :
    operator.kind.comparison? = some operator := by
  cases operator <;> rfl

theorem kind_of_comparison? {kind : Kind} {operator : Comparison}
    (writes : kind.comparison? = some operator) : kind = operator.kind := by
  cases kind <;> cases writes <;> rfl

/-- A phrase that is run through leaves its tail above what is demanded below. -/
theorem run_then {phrase : Phrase} {kinds : List Kind} (lower : List Demand) (rest : List Kind)
    (runs : run phrase.demands kinds = some phrase.tail) :
    run (phrase.demands ++ lower) (kinds ++ rest) = run (phrase.tail ++ lower) rest := by
  rw [run_append, run_over lower runs, Option.bind_some]

/-- A chain goes on at its connective with one more operand. -/
theorem run_link (operator : Connective) (lower : List Demand) (kinds : List Kind) :
    run ((chain operator).tail ++ lower) (operator.kind :: kinds) =
      run ((chain operator).demands ++ lower) kinds := by
  have taken : reactAll ((chain operator).tail ++ lower) operator.kind =
      .taken ((chain operator).demands ++ lower) := by
    rw [tail_chain, List.append_assoc, reactAll_append, operand_tail_skipped, demands_chain]
    simp
  rw [run, taken]

/-! ### Alternatives -/

theorem isValue_of_run {lower rest : List Demand} {kind : Kind} {kinds : List Kind}
    (runs : run (.operand :: lower) (kind :: kinds) = some rest) : kind.isValue = true := by
  obtain ⟨later, taken, -⟩ := run_cons.mp runs
  by_cases value : kind.isValue = true
  · exact value
  · simp [value] at taken

theorem kind_of_run_token {lower rest : List Demand} {wanted kind : Kind} {kinds : List Kind}
    (runs : run (.token wanted :: lower) (kind :: kinds) = some rest) : kind = wanted := by
  obtain ⟨later, taken, -⟩ := run_cons.mp runs
  by_cases same : kind = wanted
  · exact same
  · simp [same] at taken

theorem run_conjunction_of_comparison {kinds : List Kind}
    (runs : run comparison.demands kinds = some []) : run conjunction.demands kinds = some [] := by
  cases kinds with
  | nil => cases runs
  | cons kind rest =>
      have isValue := isValue_of_run runs
      rw [← runs]
      simp [run, reactAll, react, isValue, demands]

/-- A conjunction that starts with a parenthesis encloses a condition. -/
theorem run_conjunction_open (kinds : List Kind) :
    run conjunction.demands (.openParen :: kinds) =
      run (condition.demands ++ [.token .closeParen]) kinds := by
  rfl

theorem run_expression_of_value {kinds : List Kind}
    (runs : run value.demands kinds = some []) : run expression.demands kinds = some [] := by
  cases kinds with
  | nil => cases runs
  | cons kind rest =>
      have isValue := isValue_of_run runs
      rw [← runs]
      simp [run, reactAll, react, isValue, demands]

theorem run_expression_of_if {kinds : List Kind}
    (runs : run ifExpression.demands kinds = some []) :
    run expression.demands kinds = some [] := by
  cases kinds with
  | nil => cases runs
  | cons kind rest =>
      cases kind_of_run_token runs
      exact runs

/-! ### Whole phrases -/

/-- A derived phrase meets its demands. -/
theorem Derives.runs {phrase : Phrase} {tokens : List Token} {expr : Expr}
    (derives : phrase.Derives tokens expr) :
    run phrase.demands (tokens.map Token.kind) = some phrase.tail := by
  induction derives with
  | null kind =>
      simp only [List.map_cons, List.map_nil, kind]
      rfl
  | numeral names =>
      simp only [List.map_cons, List.map_nil, index?_kind names]
      rfl
  | @comparison token leftTokens rightTokens left right operator _ kind _ first second =>
      rw [List.map_append, List.map_cons, kind]
      show run (Phrase.value.demands ++ [.comparisonOperator, .operand]) _ = _
      rw [run_then _ _ first]
      have taken : reactAll [.comparisonOperator, .operand] operator.kind =
          .taken [.operand] := by
        simp [comparison?_kind]
      show run [.comparisonOperator, .operand] _ = _
      rw [run, taken]
      exact second
  | compared _ inductionHypothesis => exact run_conjunction_of_comparison inductionHypothesis
  | enclosed openKind _ closeKind inductionHypothesis =>
      rw [List.map_cons, List.map_append, openKind, run_conjunction_open,
        run_then _ _ inductionHypothesis, List.map_singleton, closeKind]
      rfl
  | @single operator tokens expr _ inductionHypothesis =>
      rw [demands_chain, tail_chain]
      exact run_over _ inductionHypothesis
  | @link operator token leftTokens rightTokens left right _ kind _ first second =>
      rw [List.map_append, List.map_cons, kind]
      have leads := run_then [] (operator.kind :: rightTokens.map Token.kind) first
      rw [List.append_nil] at leads
      rw [leads, run_link, List.append_nil, demands_chain, tail_chain]
      exact run_over _ second
  | plain _ inductionHypothesis => exact run_expression_of_value inductionHypothesis
  | nested _ inductionHypothesis => exact run_expression_of_if inductionHypothesis
  | ifExpression wordKind openKind _ firstKind _ secondKind _ closeKind test thenBranch
      elseBranch =>
      -- The three phrases are passed one after the other; each is followed by a token that
      -- its tail skips.
      simp only [List.map_cons, List.map_append, List.map_nil, wordKind, openKind, firstKind,
        secondKind, closeKind]
      show run (condition.demands ++ [.token .semicolon, .branch, .token .semicolon, .branch,
        .token .closeParen]) _ = _
      rw [run_then _ _ test]
      show run (expression.demands ++ [.token .semicolon, .branch, .token .closeParen]) _ = _
      rw [run_then _ _ thenBranch]
      show run (expression.demands ++ [.token .closeParen]) _ = _
      rw [run_then _ _ elseBranch]
      rfl
  | statement _ inductionHypothesis => exact inductionHypothesis

/-- A statement with the end of the text after it is demanded, and nothing more. -/
theorem Derives.runs_text {tokens : List Token} {final : Token} {expr : Expr}
    (derives : Phrase.statement.Derives tokens expr) (ends : final.kind = .endOfText) :
    run textDemands ((tokens ++ [final]).map Token.kind) = some [] := by
  rw [List.map_append, List.map_singleton, ends]
  exact run_then [.endOfText] _ derives.runs

end Phrase

end SlotLogic
