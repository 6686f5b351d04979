import SlotLogic.Rule.Basic
import SlotLogic.Tree.Basic

/-!
Contract: the rules of conditional statements.

Owns: the eight rules, the trees that they build and the reader of a whole text.

A statement is an if-expression `if ( condition ; expression ; expression )`.
A condition is a chain of disjunctions with `or`, a disjunction a chain of
conjunctions with `and`, and a conjunction either a comparison or a condition in
parentheses. A comparison has two values, and a value is `null` or a numeral. An
expression is a value or again an if-expression.

Conditions in parentheses and if-expressions in branches nest. Each of the two
is defined from the same rule one level deeper, and the number of levels is the
number of characters left: every level takes at least its opening token, so with
no character left the level below is never asked.

Does not own: tokens and cursors.
-/

set_option autoImplicit false

namespace SlotLogic

open SlotLogic.Text

def Kind.comparison? : Kind → Option Comparison
  | .eq => some .eq
  | .ne => some .ne
  | .ge => some .ge
  | .gt => some .gt
  | .le => some .le
  | .lt => some .lt
  | _ => none

namespace Rule

/-- A value: `null`, or the numeral of a slot. -/
def value : Rule Expr := do
  enter .value
  restoring do
    let token ← takeToken
    match token.kind with
    | .nullWord => return .null
    | .number => return .slot (numeralValue token.text)
    | _ => fail .operand token

def comparison : Rule Expr := do
  enter .comparison
  value.followedBy fun left => do
    let token ← takeToken
    match token.kind.comparison? with
    | none => fail .comparisonOperator token
    | some operator =>
      let right ← value
      return .compare operator left right

def enclosed (nested : Rule Expr) : Rule Expr := do
  consume .openParen
  let inner ← nested
  consume .closeParen
  return inner

def conjunctionOver (nested : Rule Expr) : Rule Expr := do
  enter .conjunction
  either Failure.further comparison (enclosed nested)

def disjunctionOver (nested : Rule Expr) : Rule Expr := do
  enter .disjunction
  chain .andWord (.connect .and) (conjunctionOver nested)

def conditionOver (nested : Rule Expr) : Rule Expr := do
  enter .condition
  chain .orWord (.connect .or) (disjunctionOver nested)

/-- A condition with at most a number of levels of parentheses. -/
def conditionWithin : Nat → Cursor → Reply Expr
  -- With nothing left no parenthesis opens, so it does not matter what is nested here.
  | 0, cursor => conditionOver comparison cursor
  | depth + 1, cursor => conditionOver (conditionWithin depth) cursor

def condition : Rule Expr :=
  fun cursor => conditionWithin cursor.remaining.length cursor

def disjunction : Rule Expr :=
  disjunctionOver condition

def conjunction : Rule Expr :=
  conjunctionOver condition

def expressionOver (nested : Rule Expr) : Rule Expr := do
  enter .expression
  either Failure.ofBranch value nested

/-- An if-expression over the if-expressions in its branches. -/
def ifExpressionOver (nested : Rule Expr) : Rule Expr := do
  enter .ifExpression
  restoring do
    consume .ifWord
    consume .openParen
    let test ← condition
    consume .semicolon
    let consequent ← expressionOver nested
    consume .semicolon
    let alternative ← expressionOver nested
    consume .closeParen
    return .choose test consequent alternative

/-- An if-expression with at most a number of levels of if-expressions in its
branches. -/
def ifExpressionWithin : Nat → Cursor → Reply Expr
  | 0, cursor => ifExpressionOver value cursor
  | depth + 1, cursor => ifExpressionOver (ifExpressionWithin depth) cursor

def ifExpression : Rule Expr :=
  fun cursor => ifExpressionWithin cursor.remaining.length cursor

def expression : Rule Expr :=
  expressionOver ifExpression

/-- A statement. A strict one must be followed by the end of the text. -/
def statement (lenient : Bool) : Rule Expr := do
  enter .statement
  ifExpression.followedBy fun expr => do
    if lenient then
      return expr
    else
      let token ← takeToken
      if token.kind = .endOfText then return expr else fail .endOfText token

def named (lenient : Bool) : RuleName → Rule Expr
  | .statement => statement lenient
  | .ifExpression => ifExpression
  | .condition => condition
  | .disjunction => disjunction
  | .conjunction => conjunction
  | .comparison => comparison
  | .expression => expression
  | .value => value

end Rule

/-- Read a statement from the start of a text, with the records of the rules
entered. -/
def readStatement (lenient : Bool) (text : List Char) : Reply Expr :=
  Rule.statement lenient (Cursor.atStart text)

/-- The tree of the statement that a text holds. -/
def parse (lenient : Bool) (text : List Char) : Except ReadFault Expr :=
  (readStatement lenient text).outcome

end SlotLogic
