import SlotLogic.Text.Integer

/-!
Contract: the arguments of the command line, each by itself.

Owns: the named options, the sorts of arguments, the faults of using the command
line with their wording, and the classification of arguments.

An argument that starts with a minus names an option: in full, in full with a
text after an equals sign, or by the beginning of one long name only. The one
short name may be followed by more characters, directly or after an equals sign.
An argument that names nothing is an unknown option, unless it is a negative
number or holds a space.
All arguments are classified before any is used, so a name that begins several
options is reported first. After two lone minuses every argument is plain.

Does not own: the order of arguments.
-/

set_option autoImplicit false

namespace SlotLogic.CommandLine

open SlotLogic.Text

inductive OptionKind where
  | help
  | slot
  | tree
  | source
  | trace
deriving DecidableEq, Repr

def OptionKind.title : OptionKind → String
  | .help => "-h/--help"
  | .slot => "--slot"
  | .tree => "--tree"
  | .source => "--source"
  | .trace => "--trace"

structure NamedOption where
  name : String
  kind : OptionKind
deriving DecidableEq, Repr

/-- The names of all options in the order in which they are listed. -/
def namedOptions : List NamedOption :=
  [⟨"-h", .help⟩, ⟨"--help", .help⟩, ⟨"--slot", .slot⟩, ⟨"--tree", .tree⟩,
    ⟨"--source", .source⟩, ⟨"--trace", .trace⟩]

/-- A text that is written together with the name of an option: after the equals
sign of a long name, or joined to a short name. -/
inductive Attached where
  | nothing
  | equals (text : List Char)
  | joined (text : List Char)
deriving DecidableEq, Repr

/-- The sorts of arguments. -/
inductive Argument where
  | plain (text : List Char)
  | separator
  | option (kind : OptionKind) (attached : Attached)
  | unknown (text : List Char)
deriving DecidableEq, Repr

/-- The argument after which every argument is plain. -/
def separator : List Char := ['-', '-']

inductive UsageFault where
  | ambiguous (argument : List Char) (names : List String)
  | missingText (kind : OptionKind)
  | ignoredText (kind : OptionKind) (text : List Char)
  | notAssignment (text : List Char)
  | notIndex (text : List Char)
  | missingExpression
  | unrecognized (arguments : List (List Char))
deriving DecidableEq, Repr

def ofOption (kind : OptionKind) (message : String) : String :=
  s!"argument {kind.title}: {message}"

def shown (text : List Char) : String :=
  String.ofList (quoted text)

def UsageFault.message : UsageFault → String
  | .ambiguous argument names =>
    s!"ambiguous option: {String.ofList argument} could match " ++ ", ".intercalate names
  | .missingText kind => ofOption kind "expected one argument"
  | .ignoredText kind text => ofOption kind s!"ignored explicit argument {shown text}"
  | .notAssignment text => ofOption .slot s!"expected K=V, got {shown text}"
  | .notIndex text => ofOption .slot s!"slot index must be an integer, got {shown text}"
  | .missingExpression => "the following arguments are required: expression"
  | .unrecognized arguments =>
    "unrecognized arguments: " ++ " ".intercalate (arguments.map String.ofList)

/-- Split a text at its first equals sign, if it has one. -/
def splitAtEquals (text : List Char) : List Char × Option (List Char) :=
  match text.dropWhile (· != '=') with
  | [] => (text, none)
  | _ :: rest => (text.takeWhile (· != '='), some rest)

def Attached.afterEquals : Option (List Char) → Attached
  | some text => .equals text
  | none => .nothing

def optionNamed? (name : List Char) : Option OptionKind :=
  (namedOptions.find? fun option => option.name.toList == name).map NamedOption.kind

/-- The long options that a beginning may stand for. -/
def longCandidates (argument : List Char) : List (NamedOption × Attached) :=
  let (beginning, attached) := splitAtEquals argument
  (namedOptions.filter fun option => beginning.isPrefixOf option.name.toList).map
    fun option => (option, .afterEquals attached)

/-- The short option that a minus and a character stand for, with the characters
that follow. -/
def shortCandidates (second : Char) (rest : List Char) : List (NamedOption × Attached) :=
  (namedOptions.filter fun option => option.name.toList == ['-', second]).map
    fun option => (option, .joined rest)

/-- Whether a text is a negative number without exponent. A line feed at its end
does not count. -/
def isNegativeNumber : List Char → Bool
  | '-' :: unsigned =>
    let body := if unsigned.getLast? == some '\n' then unsigned.dropLast else unsigned
    match takeDigits body with
    | (_ :: _, []) => true
    | (_, '.' :: fraction) =>
      match takeDigits fraction with
      | (_ :: _, []) => true
      | _ => false
    | _ => false
  | _ => false

def classify (argument : List Char) : Except UsageFault Argument :=
  match argument with
  | '-' :: second :: rest =>
    match optionNamed? argument, splitAtEquals argument with
    | some kind, _ => .ok (.option kind .nothing)
    | none, (name, attached) =>
      match attached, optionNamed? name with
      | some text, some kind =>
        .ok (.option kind (if second == '-' then .equals text else .joined text))
      | _, _ =>
        match (if second == '-' then longCandidates argument else shortCandidates second rest) with
        | [] =>
          if isNegativeNumber argument || argument.contains ' ' then .ok (.plain argument)
          else .ok (.unknown argument)
        | [(option, attached)] => .ok (.option option.kind attached)
        | several => .error (.ambiguous argument (several.map fun pair => pair.1.name))
  | _ => .ok (.plain argument)

def classifyAll : List (List Char) → Except UsageFault (List Argument)
  | [] => .ok []
  | argument :: rest =>
    if argument = separator then .ok (.separator :: rest.map .plain)
    else do
      let first ← classify argument
      let others ← classifyAll rest
      return first :: others

end SlotLogic.CommandLine
