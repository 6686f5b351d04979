import SlotLogic.Evaluation.Basic
import SlotLogic.Log
import SlotLogic.Rule.Statement
import SlotLogic.Value.Row

/-!
Contract: plans that are built once from a text or a tree and used on many
rows.

Owns: what a plan may be built from, the faults of building, the log of
building, and evaluation on a row.

A text that stands where a tree should is read as a statement. The evaluation is
composed of the whole tree before a plan is there, so a built plan never fails.

Does not own: reading, and the meaning of expressions.
-/

set_option autoImplicit false

namespace SlotLogic

inductive Subject where
  | text (source : String)
  | tree (root : Tree Datum)

/-- A tree as a subject; a lone text is a statement to be read. -/
def Subject.ofTree : Tree Datum → Subject
  | .foreign (.text source) => .text source
  | root => .tree root

def Subject.source? : Subject → Option String
  | .text source => some source
  | .tree _ => none

inductive BuildFault where
  | unreadable (fault : ReadFault)
  | foreignLeaf (leaf : Datum)

/-- An outcome with the log of the way to it. -/
structure Logged (Fault Result : Type) where
  outcome : Except Fault Result
  log : List LogRecord

namespace Logged

variable {Fault Result : Type}

/-- A result that is made from the one at hand, with one more record for it. -/
def build {Result' : Type} (make : Result → Except Fault Result') (record : Result' → LogRecord)
    (logged : Logged Fault Result) : Logged Fault Result' :=
  match logged.outcome.bind make with
  | .ok result => ⟨.ok result, logged.log ++ [record result]⟩
  | .error fault => ⟨.error fault, logged.log⟩

end Logged

/-- Read a text, with the log of the rules entered. -/
def readLogged (lenient : Bool) (source : String) : Logged ReadFault Expr :=
  let text := source.toList
  let reply := readStatement lenient text
  ⟨reply.outcome, reply.entries.map (RuleEntry.record text)⟩

/-- The tree of a subject; that of a text is read. -/
def Subject.root (lenient : Bool) : Subject → Logged BuildFault (Tree Datum)
  | .text source =>
    let read := readLogged lenient source
    ⟨(read.outcome.map Expr.toTree).mapError .unreadable, read.log⟩
  | .tree root => ⟨.ok root, []⟩

/-- A plan: its tree, the text that it was read from, and the evaluation that is
composed of the tree. -/
structure Plan where
  root : Tree Datum
  source? : Option String
  evaluate : Evaluator
  composed : root.compile = .ok evaluate

namespace Plan

def slots (plan : Plan) : List Int :=
  plan.root.slots

def record (plan : Plan) : LogRecord :=
  builtRecord plan.root

def compose (source? : Option String) (root : Tree Datum) : Except BuildFault Plan :=
  match composed : root.compile with
  | .ok evaluate => .ok ⟨root, source?, evaluate, composed⟩
  | .error leaf => .error (.foreignLeaf leaf)

def build (lenient : Bool) (subject : Subject) : Logged BuildFault Plan :=
  (subject.root lenient).build (compose subject.source?) record

def run (plan : Plan) (row : Row) : Evaluation :=
  plan.evaluate row.read

/-- The value on an assignment. Its slots hold values, so the result is one. -/
def valueOn (plan : Plan) (assignment : Assignment) : Value :=
  (plan.run assignment.toRow).result.value?.getD .null

end Plan

end SlotLogic
