import SlotLogic.Rule.Basic
import SlotLogic.Tree.Basic
import SlotLogic.Text.Integer

/-!
Contract: the log of reading and building.

Owns: the channels of the log, the line of a record, and the message of each
event that is logged.

Does not own: when an event happens.
-/

set_option autoImplicit false

namespace SlotLogic

open SlotLogic.Text

/-- The parts of the program that write to the log. -/
inductive LogChannel where
  | reader
  | plan
  | batch
deriving DecidableEq, Repr

def LogChannel.name : LogChannel → String
  | .reader => "secel.parser"
  | .plan => "secel.evaluator"
  | .batch => "secel.batch"

structure LogRecord where
  channel : LogChannel
  message : String
deriving DecidableEq, Repr

/-- A record as it is written: the channel, and the message. -/
def LogRecord.line (record : LogRecord) : String :=
  s!"{record.channel.name}: {record.message}"

/-- Fill a text with blanks on its right up to a width. -/
def padRight (width : Nat) (text : List Char) : List Char :=
  text ++ List.replicate (width - text.length) ' '

/-- Fill a text with blanks on its left up to a width. -/
def padLeft (width : Nat) (text : List Char) : List Char :=
  List.replicate (width - text.length) ' ' ++ text

/-- A rule that is entered: its label, the place of the cursor, and what is left
of the text from there. -/
def RuleEntry.record (text : List Char) (entry : RuleEntry) : LogRecord :=
  { channel := .reader
    message := String.ofList
      (padRight 14 entry.rule.label.toList ++ padLeft 4 (Nat.toDigits 10 entry.position)
        ++ [' ', '|', ' '] ++ text.drop entry.position) }

/-- Slot indices in parentheses, with a comma after a lone one. -/
def slotTuple (slots : List Int) : String :=
  let shown := slots.map fun index => String.ofList (writeInteger index)
  match shown with
  | [only] => "(" ++ only ++ ",)"
  | _ => "(" ++ ", ".intercalate shown ++ ")"

def builtRecord {Foreign : Type} [TypeNamed Foreign] (tree : Tree Foreign) : LogRecord :=
  { channel := .plan
    message := s!"Built evaluator for {tree.label} over slots {slotTuple tree.slots}" }

end SlotLogic
