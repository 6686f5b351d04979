import SlotLogic.CommandLine.Argument
import SlotLogic.Value.Datum

/-!
Contract: what the arguments of the command line ask for together.

Owns: the request, the text of a slot, and collecting a request from arguments
in their order.

The first plain argument is the expression, and a separator beside it is dropped
with it. A plain argument after an option that wants a text is that text. A slot
whose text is a separator stays blank. Slots are read as they come, so the first
fault in order is reported; a call for help ends everything where it stands. Only
then is an expression demanded, and only then are arguments that nothing asked
for refused.

Does not own: the classification of single arguments.
-/

set_option autoImplicit false

namespace SlotLogic.CommandLine

open SlotLogic.Text

/-- What is asked for, while arguments are collected. A blank slot is `none`. -/
structure Request where
  expression? : Option (List Char)
  slots : List (Option (Int × Datum))
  tree : Bool
  source : Bool
  trace : Bool
  extras : List (List Char)

def Request.empty : Request :=
  ⟨none, [], false, false, false, []⟩

inductive Stop where
  | help
  | fault (fault : UsageFault)
deriving DecidableEq, Repr

/-- The datum that the text of a slot spells: nothing, a truth value in letters
of any case, or the text itself. -/
def slotDatum (raw : List Char) : Datum :=
  let text := trim isSpace raw
  let lowered := text.map Char.toLower
  if lowered = ['n', 'u', 'l', 'l'] then .none
  else if lowered = ['t', 'r', 'u', 'e'] then .bool true
  else if lowered = ['f', 'a', 'l', 's', 'e'] then .bool false
  else .text (String.ofList text)

/-- Read the text of a slot: an index, an equals sign and a datum. -/
def readSlot (text : List Char) : Except UsageFault (Int × Datum) :=
  match splitAtEquals text with
  | (_, none) => .error (.notAssignment text)
  | (index, some raw) =>
    match readInteger index with
    | .error _ => .error (.notIndex index)
    | .ok number => .ok (number, slotDatum raw)

/-- The end of a call for help that a text is joined to. The text repeats the
call, character by character, up to what it cannot repeat. -/
def joinedHelp : List Char → Stop
  | ['h'] => .help
  | 'h' :: rest => joinedHelp rest
  | text => .fault (.ignoredText .help text)

def helpStop : Attached → Stop
  | .nothing => .help
  | .equals text => .fault (.ignoredText .help text)
  | .joined text => joinedHelp text

namespace Request

def addSlot (request : Request) (text : List Char) : Except Stop Request :=
  if text = separator then .ok { request with slots := request.slots ++ [none] }
  else
    match readSlot text with
    | .ok slot => .ok { request with slots := request.slots ++ [some slot] }
    | .error fault => .error (.fault fault)

def addFlag (request : Request) : OptionKind → Request
  | .tree => { request with tree := true }
  | .source => { request with source := true }
  | .trace => { request with trace := true }
  | .help | .slot => request

def addExtra (request : Request) (text : List Char) : Request :=
  { request with extras := request.extras ++ [text] }

def withExpression (request : Request) (text : List Char) : Request :=
  { request with expression? := some text }

def collect : List Argument → Request → Except Stop Request
  | [], request => .ok request
  | .option .help attached :: _, _ => .error (helpStop attached)
  | .option .slot .nothing :: .plain text :: rest, request => do
    collect rest (← request.addSlot text)
  | .option .slot .nothing :: _, _ => .error (.fault (.missingText .slot))
  | .option .slot (.equals text) :: rest, request => do
    collect rest (← request.addSlot text)
  | .option .slot (.joined text) :: rest, request => do
    collect rest (← request.addSlot text)
  | .option kind .nothing :: rest, request => collect rest (request.addFlag kind)
  | .option kind (.equals text) :: _, _ => .error (.fault (.ignoredText kind text))
  | .option kind (.joined text) :: _, _ => .error (.fault (.ignoredText kind text))
  | .unknown text :: rest, request => collect rest (request.addExtra text)
  | .plain text :: .separator :: rest, request =>
    if request.expression?.isNone then collect rest (request.withExpression text)
    else collect rest ((request.addExtra text).addExtra separator)
  | .plain text :: rest, request =>
    if request.expression?.isNone then collect rest (request.withExpression text)
    else collect rest (request.addExtra text)
  | .separator :: .plain text :: rest, request =>
    if request.expression?.isNone then collect rest (request.withExpression text)
    else collect rest ((request.addExtra separator).addExtra text)
  | .separator :: rest, request => collect rest (request.addExtra separator)

end Request

/-- A request with its expression. -/
structure Job where
  expression : List Char
  request : Request

def readArguments (arguments : List (List Char)) : Except Stop Job := do
  let sorted ← (classifyAll arguments).mapError Stop.fault
  let request ← Request.collect sorted .empty
  match request.expression? with
  | none => .error (.fault .missingExpression)
  | some expression =>
    if request.extras.isEmpty then return ⟨expression, request⟩
    else .error (.fault (.unrecognized request.extras))

end SlotLogic.CommandLine
