import SlotLogic.Token.Basic

/-!
Contract: why a rule does not match, and how that is reported.

Owns: what a rule looked for, the failure with the token found instead, which of
two failures is kept, and the report with its one-line text.

A failure is located at the token that was found: its place is the place of the
failure, and its description is what the report shows as found.

Does not own: the rules.
-/

set_option autoImplicit false

namespace SlotLogic

open SlotLogic.Text

/-- What a rule looked for at the place of its failure. -/
inductive Wanted where
  | endOfText
  | token (kind : Kind)
  | comparisonOperator
  | operand
  | branch
deriving DecidableEq, Repr

namespace Wanted

def message : Wanted → String
  | endOfText => "Unexpected trailing input"
  | token _ => "Unexpected token"
  | comparisonOperator => "Expected comparison operator"
  | operand => "Expected null or number"
  | branch => "Expected value or if expression"

/-- The names of what could stand there instead. -/
def alternatives : Wanted → List String
  | endOfText => [Kind.endOfText.name]
  | token kind => [kind.name]
  | comparisonOperator => ["=", "<>", ">", "<", ">=", "<="]
  | operand => [Kind.nullWord.name, Kind.number.name]
  | branch => ["value", "if expression"]

end Wanted

/-- A rule that does not match: what it looked for, and what it found. -/
structure Failure where
  wanted : Wanted
  found : Token
deriving DecidableEq, Repr

namespace Failure

def position (failure : Failure) : Nat :=
  failure.found.start

/-- Of two failures the one further in the text, and the second of two at one
place. -/
def further (first second : Failure) : Failure :=
  if second.position < first.position then first else second

/-- The failure of a branch that is neither a value nor a nested statement. The
nested statement is blamed only if it got further than the value. -/
def ofBranch (value nested : Failure) : Failure :=
  if value.position < nested.position then nested else ⟨.branch, value.found⟩

end Failure

structure Report where
  message : String
  position : Int
  expected : List String
  found : Option String
deriving DecidableEq, Repr

def Failure.report (failure : Failure) : Report :=
  { message := failure.wanted.message
    position := failure.position
    expected := failure.wanted.alternatives
    found := some failure.found.description }

/-- A report in one line. What was expected, and what was found, are left out
where nothing is known. -/
def Report.line (report : Report) : String :=
  s!"{report.message} at position {report.position}"
    ++ (if report.expected.isEmpty then ""
      else "; expected " ++ ", ".intercalate report.expected)
    ++ match report.found with
      | none => ""
      | some found => "; found " ++ found

/-- Why a statement cannot be read: a rule fails, or a numeral is too long to be
converted. -/
inductive ReadFault where
  | failure (failure : Failure)
  | overlong (numeral : OverlongNumeral)
deriving DecidableEq, Repr

end SlotLogic
