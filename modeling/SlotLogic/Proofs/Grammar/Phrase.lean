import SlotLogic.Token.Basic
import SlotLogic.Tree.Basic

/-!
Contract: the grammar of statements, apart from any way of reading one.

Owns: the sorts of phrases, the derivations of phrases with the trees that they
stand for, and the words of kinds that a phrase can have.

    statement      = ifExpression
    ifExpression   = "if" "(" condition ";" expression ";" expression ")"
    condition      = disjunction { "or" disjunction }
    disjunction    = conjunction { "and" conjunction }
    conjunction    = "(" condition ")" | comparison
    comparison     = value ("=" | "<>" | ">" | "<" | ">=" | "<=") value
    expression     = value | ifExpression
    value          = numeral | "null"

The two repetitions are one production with the connective as a parameter: a
chain is one operand, or a chain, its connective and one more operand. So a chain
folds to the left, and a pair of parentheses leaves no node.

Does not own: the texts of tokens.
-/

set_option autoImplicit false

namespace SlotLogic

/-- The sorts of phrases. -/
inductive Phrase where
  | value
  | comparison
  | conjunction
  | chain (operator : Connective)
  | expression
  | ifExpression
  | statement
deriving DecidableEq, Repr

namespace Phrase

/-- Conjunctions with `and` between each two. -/
abbrev disjunction : Phrase := .chain .and

/-- Disjunctions with `or` between each two. -/
abbrev condition : Phrase := .chain .or

end Phrase

/-- The kind of the token that writes a connective. -/
def Connective.kind : Connective → Kind
  | .and => .andWord
  | .or => .orWord

/-- What stands between the connectives of a chain. -/
def Connective.operand : Connective → Phrase
  | .and => .conjunction
  | .or => .disjunction

/-- The kind of the token that writes a comparison. -/
def Comparison.kind : Comparison → Kind
  | .eq => .eq
  | .ne => .ne
  | .ge => .ge
  | .gt => .gt
  | .le => .le
  | .lt => .lt

@[simp] theorem Connective.isFinal_kind (operator : Connective) :
    operator.kind.isFinal = false := by
  cases operator <;> rfl

@[simp] theorem Comparison.isFinal_kind (operator : Comparison) :
    operator.kind.isFinal = false := by
  cases operator <;> rfl

namespace Phrase

/-- The tokens of a phrase with the tree that they stand for. -/
inductive Derives : Phrase → List Token → Expr → Prop where
  | null {token : Token} (kind : token.kind = .nullWord) : Derives .value [token] .null
  | numeral {token : Token} {index : Nat} (names : token.index? = some index) :
      Derives .value [token] (.slot index)
  | comparison {token : Token} {leftTokens rightTokens : List Token} {left right : Expr}
      {operator : Comparison} (first : Derives .value leftTokens left)
      (kind : token.kind = operator.kind) (second : Derives .value rightTokens right) :
      Derives .comparison (leftTokens ++ token :: rightTokens) (.compare operator left right)
  | compared {tokens : List Token} {expr : Expr} (inner : Derives .comparison tokens expr) :
      Derives .conjunction tokens expr
  | enclosed {opening closing : Token} {tokens : List Token} {expr : Expr}
      (openKind : opening.kind = .openParen) (inner : Derives .condition tokens expr)
      (closeKind : closing.kind = .closeParen) :
      Derives .conjunction (opening :: (tokens ++ [closing])) expr
  | single {operator : Connective} {tokens : List Token} {expr : Expr}
      (only : Derives operator.operand tokens expr) : Derives (.chain operator) tokens expr
  | link {operator : Connective} {token : Token} {leftTokens rightTokens : List Token}
      {left right : Expr} (first : Derives (.chain operator) leftTokens left)
      (kind : token.kind = operator.kind)
      (second : Derives operator.operand rightTokens right) :
      Derives (.chain operator) (leftTokens ++ token :: rightTokens)
        (.connect operator left right)
  | plain {tokens : List Token} {expr : Expr} (inner : Derives .value tokens expr) :
      Derives .expression tokens expr
  | nested {tokens : List Token} {expr : Expr} (inner : Derives .ifExpression tokens expr) :
      Derives .expression tokens expr
  | ifExpression {word opening first second closing : Token}
      {testTokens thenTokens elseTokens : List Token} {test consequent alternative : Expr}
      (wordKind : word.kind = .ifWord) (openKind : opening.kind = .openParen)
      (condition : Derives .condition testTokens test) (firstKind : first.kind = .semicolon)
      (thenBranch : Derives .expression thenTokens consequent)
      (secondKind : second.kind = .semicolon)
      (elseBranch : Derives .expression elseTokens alternative)
      (closeKind : closing.kind = .closeParen) :
      Derives .ifExpression
        (word :: opening :: (testTokens ++ first :: (thenTokens ++ second ::
          (elseTokens ++ [closing]))))
        (.choose test consequent alternative)
  | statement {tokens : List Token} {expr : Expr} (inner : Derives .ifExpression tokens expr) :
      Derives .statement tokens expr

/-- The words of kinds that a phrase can have. -/
def Spells (phrase : Phrase) (kinds : List Kind) : Prop :=
  ∃ tokens expr, phrase.Derives tokens expr ∧ tokens.map Token.kind = kinds

/-- The beginnings of the words of a phrase. -/
def Begins (phrase : Phrase) (kinds : List Kind) : Prop :=
  ∃ rest, phrase.Spells (kinds ++ rest)

end Phrase

/-- A word of kinds that is a whole statement. -/
def IsSentence (kinds : List Kind) : Prop :=
  Phrase.statement.Spells kinds

end SlotLogic
