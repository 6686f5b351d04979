import SlotLogic.CommandLine.Request
import SlotLogic.Evaluation.Plan
import SlotLogic.Settings
import SlotLogic.Tree.Drawing
import SlotLogic.Tree.Source

/-!
Contract: one run of the command line as a function.

Owns: the usage and the help text, what a run writes and with which code it
ends, and the faults that end it without an output.

A run reads its expression, writes the drawing and the canonical text if they
are asked for, assigns the slots and writes the value. The log goes to the error
stream before anything else that is written there. A statement that cannot be
read, and slots that cannot be assigned, end the run with code 2; what was
written before stays written. An over-long numeral in the statement ends it
without an output, and so does a blank slot, once the statement is read and
shown. What cannot be shown or composed would end it in the same way.

Does not own: streams and exit codes of the process.
-/

set_option autoImplicit false

namespace SlotLogic.CommandLine

open SlotLogic.Text

structure Output where
  code : Nat
  stdout : String
  stderr : String
deriving DecidableEq, Repr

def usage : String :=
  "usage: secel_eval.py [-h] [--slot K=V] [--tree] [--source] [--trace]\n"
    ++ "                     expression\n"

def helpText : String :=
  usage
    ++ "\nParse a SECEL statement, optionally print its tree, and evaluate it.\n"
    ++ "\npositional arguments:\n"
    ++ "  expression  SECEL statement, e.g. 'if(1=2;1;2)'\n"
    ++ "\noptions:\n"
    ++ "  -h, --help  show this help message and exit\n"
    ++ "  --slot K=V  slot value: a decimal number, true, false or null (repeatable)\n"
    ++ "  --tree      print the AST as a tree\n"
    ++ "  --source    print the canonical source text\n"
    ++ "  --trace     log parser rule entries\n"

def line (text : String) : String :=
  text ++ "\n"

def Stop.output : Stop → Output
  | .help => ⟨0, helpText, ""⟩
  | .fault reason => ⟨2, "", usage ++ line ("secel_eval.py: error: " ++ reason.message)⟩

def logText (records : List LogRecord) : String :=
  String.join (records.map fun record => line record.line)

inductive RunFault where
  | overlong (numeral : OverlongNumeral)
  | overlongIndex (index : OverlongInteger)
  | foreignLeaf (leaf : Datum)
  | blankSlot (place : Nat)

def RunFault.message : RunFault → String
  | .overlong numeral => numeral.message
  | .overlongIndex index => index.message
  | .foreignLeaf leaf => foreignMessage leaf
  | .blankSlot place =>
    s!"dictionary update sequence element #{place} has length 0; 2 is required"

/-- The row of the slots that are asked for. The first blank one is a fault. -/
def Request.row (request : Request) : Except RunFault Row :=
  match request.slots.findIdx? Option.isNone with
  | some place => .error (.blankSlot place)
  | none =>
    .ok (.ofPairs (request.slots.filterMap fun slot =>
      slot.map fun (index, datum) => (.integer index, datum)))

def RunFault.ofSource : Tree.SourceFault Datum → RunFault
  | .foreignLeaf leaf => .foreignLeaf leaf
  | .overlongIndex index => .overlongIndex index

/-- The drawing and the canonical text, as far as they are asked for. -/
def Request.views (request : Request) (root : Tree Datum) : Except RunFault String := do
  let drawing ←
    if request.tree then (root.draw.map fun text => line (String.ofList text)).mapError .overlongIndex
    else pure ""
  let source ←
    if request.source then (root.source.map fun text => line (String.ofList text)).mapError .ofSource
    else pure ""
  return drawing ++ source

def Job.run (settings : Settings) (job : Job) : Except RunFault Output :=
  let built := Plan.build settings.lenient (.text (String.ofList job.expression))
  let log := if job.request.trace then logText built.log else ""
  match built.outcome with
  | .error (.unreadable (.overlong numeral)) => .error (.overlong numeral)
  | .error (.unreadable (.failure failure)) =>
    .ok ⟨2, "", log ++ line ("parse error: " ++ failure.report.line)⟩
  | .error (.foreignLeaf leaf) => .error (.foreignLeaf leaf)
  | .ok plan => do
    let views ← job.request.views plan.root
    let row ← job.request.row
    match Assignment.ofRow row with
    | .error fault => .ok ⟨2, views, log ++ line ("invalid slot value: " ++ fault.message)⟩
    | .ok assignment =>
      .ok ⟨0, views ++ line (plan.valueOn assignment).line, log⟩

def run (settings : Settings) (arguments : List String) : Except RunFault Output :=
  match readArguments (arguments.map String.toList) with
  | .error stop => .ok stop.output
  | .ok job => job.run settings

end SlotLogic.CommandLine
