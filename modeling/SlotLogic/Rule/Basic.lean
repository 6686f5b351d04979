import SlotLogic.Rule.Failure
import SlotLogic.Token.Cursor

/-!
Contract: rules that read from a cursor, and the ways to combine them.

Owns: the names of the rules, the record of a rule that is entered, the reply of
a rule, sequencing, restoring the cursor after a failure, choice between two
rules, and chains of operands.

A rule answers from a cursor with an outcome, the cursor that it leaves and the
records of all rules entered on the way, in order. After a fault nothing more is
read. A failure may be answered by another rule; an over-long numeral is
answered by none and leaves the cursor where the numeral stands.

Does not own: the rules of statements.
-/

set_option autoImplicit false

namespace SlotLogic

open SlotLogic.Text

/-- The rules whose entry is recorded. -/
inductive RuleName where
  | statement
  | ifExpression
  | condition
  | disjunction
  | conjunction
  | comparison
  | expression
  | value
deriving DecidableEq, Repr

namespace RuleName

def all : List RuleName :=
  [statement, ifExpression, condition, disjunction, conjunction, comparison, expression, value]

def label : RuleName → String
  | statement => "statement"
  | ifExpression => "if-expression"
  | condition => "condition"
  | disjunction => "disjunction"
  | conjunction => "conjunction"
  | comparison => "comparison"
  | expression => "expression"
  | value => "value"

end RuleName

/-- A rule that is entered, with the place of the cursor, before any blank is
passed. -/
structure RuleEntry where
  rule : RuleName
  position : Nat
deriving DecidableEq, Repr

structure Reply (α : Type) where
  outcome : Except ReadFault α
  cursor : Cursor
  entries : List RuleEntry

def Rule (α : Type) : Type :=
  Cursor → Reply α

variable {α β : Type}

/-- Go on after a reply, unless it is a fault. -/
def Reply.andThen (reply : Reply α) (next : α → Rule β) : Reply β :=
  match reply.outcome with
  | .ok value =>
    let later := next value reply.cursor
    ⟨later.outcome, later.cursor, reply.entries ++ later.entries⟩
  | .error fault => ⟨.error fault, reply.cursor, reply.entries⟩

namespace Rule

protected def pure (value : α) : Rule α :=
  fun cursor => ⟨.ok value, cursor, []⟩

protected def bind (rule : Rule α) (next : α → Rule β) : Rule β :=
  fun cursor => (rule cursor).andThen next

instance : Monad Rule where
  pure := Rule.pure
  bind := Rule.bind

/-- Record that a rule is entered. -/
def enter (name : RuleName) : Rule Unit :=
  fun cursor => ⟨.ok (), cursor, [⟨name, cursor.position⟩]⟩

def fail (wanted : Wanted) (found : Token) : Rule α :=
  fun cursor => ⟨.error (.failure ⟨wanted, found⟩), cursor, []⟩

/-- The number of characters at and after the cursor. -/
def charactersLeft : Rule Nat :=
  fun cursor => ⟨.ok cursor.remaining.length, cursor, []⟩

def takeToken : Rule Token :=
  fun cursor => ⟨cursor.next.1.mapError .overlong, cursor.next.2, []⟩

/-- Move the cursor back to a place if a rule fails. -/
def returning (start : Nat) (rule : Rule α) : Rule α :=
  fun cursor =>
    let reply := rule cursor
    match reply.outcome with
    | .error (.failure failure) =>
      ⟨.error (.failure failure), reply.cursor.moveTo start, reply.entries⟩
    | _ => reply

/-- Move the cursor back to where a rule started if the rule fails. -/
def restoring (rule : Rule α) : Rule α :=
  fun cursor => returning cursor.position rule cursor

/-- Go on after a rule. If what follows it fails, the cursor is moved back to where the
rule started; if the rule itself fails, the cursor stays where the rule has left it. -/
def followedBy (rule : Rule α) (next : α → Rule β) : Rule β :=
  fun cursor => (rule >>= fun value => returning cursor.position (next value)) cursor

def consume (kind : Kind) : Rule Unit :=
  restoring do
    let token ← takeToken
    if token.kind = kind then return () else fail (.token kind) token

/-- Take a token of one kind if it comes next, and tell whether it did. -/
def accepts (kind : Kind) : Rule Bool :=
  fun cursor =>
    let reply := consume kind cursor
    match reply.outcome with
    | .ok _ => ⟨.ok true, reply.cursor, reply.entries⟩
    | .error (.failure _) => ⟨.ok false, reply.cursor, reply.entries⟩
    | .error (.overlong numeral) => ⟨.error (.overlong numeral), reply.cursor, reply.entries⟩

/-- Try a second rule from the same place if the first one fails. If both fail,
the failures are merged and the cursor is moved back. -/
def either (merge : Failure → Failure → Failure) (first second : Rule α) : Rule α :=
  fun cursor =>
    let attempt := first cursor
    match attempt.outcome with
    | .error (.failure failure) =>
      -- Neither rule needs to restore the cursor by itself.
      let retry := second (attempt.cursor.moveTo cursor.position)
      match retry.outcome with
      | .error (.failure failure') =>
        ⟨.error (.failure (merge failure failure')), retry.cursor.moveTo cursor.position,
          attempt.entries ++ retry.entries⟩
      | outcome => ⟨outcome, retry.cursor, attempt.entries ++ retry.entries⟩
    | _ => attempt

/-- The operands of a chain after its first, folded to the left. The bound is a
number of characters that are left at most: with none left, no operator can
follow. -/
def links (operator : Kind) (build : α → α → α) (operand : Rule α) : Nat → α → Rule α
  | 0, folded => return folded
  | bound + 1, folded => do
    if ← accepts operator then
      let right ← operand
      links operator build operand bound (build folded right)
    else
      return folded

/-- Operands with an operator between each two, folded to the left. -/
def chain (operator : Kind) (build : α → α → α) (operand : Rule α) : Rule α :=
  operand.followedBy fun first => do
    let bound ← charactersLeft
    links operator build operand bound first

end Rule

end SlotLogic
