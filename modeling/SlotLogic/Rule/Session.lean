import SlotLogic.Rule.Statement

/-!
Contract: a reader that is driven step by step.

Owns: the steps that a caller may take on one text, in any order, and the answer
to each.

Does not own: what the rules answer.
-/

set_option autoImplicit false

namespace SlotLogic

inductive Step where
  | rule (name : RuleName)
  | consume (kind : Kind)
  | next
  | moveTo (target : Int)
deriving DecidableEq, Repr

/-- What a step yields, if there is no fault. -/
inductive StepResult where
  | tree (expr : Expr)
  | consumed
  | token (token : Token)
  | moved
deriving DecidableEq, Repr

def Step.run (lenient : Bool) (step : Step) : Rule StepResult :=
  match step with
  | .rule name => do return .tree (← Rule.named lenient name)
  | .consume kind => do
    Rule.consume kind
    return .consumed
  | .next => do return .token (← Rule.takeToken)
  | .moveTo target => fun cursor => ⟨.ok .moved, cursor.moveTo target, []⟩

/-- The replies to a list of steps, each from the cursor that the one before
left. -/
def Step.runAll (lenient : Bool) : List Step → Cursor → List (Reply StepResult)
  | [], _ => []
  | step :: later, cursor =>
    let reply := step.run lenient cursor
    reply :: Step.runAll lenient later reply.cursor

end SlotLogic
