import SlotLogic.Batch.Plan
import SlotLogic.Main
import SlotLogic.Rule.Session
import SlotLogic.Proofs.Token.Reading
import SlotLogic.Proofs.Grammar.Demand
import SlotLogic.Proofs.Grammar.Completion
import SlotLogic.Proofs.Grammar.Unambiguity
import SlotLogic.Proofs.Rule.Answer
import SlotLogic.Proofs.Rule.Phrase
import SlotLogic.Proofs.Grammar.Shape
import SlotLogic.Proofs.Statement.Acceptance
import SlotLogic.Proofs.Statement.Failure
import SlotLogic.Proofs.Token.Writing
import SlotLogic.Proofs.Statement.RoundTrip
import SlotLogic.Proofs.Batch.Rank
import SlotLogic.Proofs.Tree.Slots
import SlotLogic.Proofs.Tree.Preorder
import SlotLogic.Proofs.Batch.Lane
import SlotLogic.Proofs.Batch.Agreement
import SlotLogic.Proofs.Rule.Ascent
import SlotLogic.Proofs.Rule.Opening
import SlotLogic.Proofs.Statement.Progress
import SlotLogic.Proofs.Batch.Report
import SlotLogic.Proofs.Statement.Trailing
import SlotLogic.Proofs.Cache.History
import SlotLogic.Proofs.Statement.Storage
import SlotLogic.Proofs.Token.Spelling
import SlotLogic.Proofs.Tree.Words
import SlotLogic.Proofs.Statement.Parentheses
import SlotLogic.Proofs.Token.Overlong
import SlotLogic.Proofs.Statement.Outcome
import SlotLogic.Proofs.Tree.Drawing
import SlotLogic.Proofs.Tree.Fault
import SlotLogic.Proofs.Evaluation.Refusal
import SlotLogic.Proofs.Token.Cut
import SlotLogic.Proofs.Token.Spacing
import SlotLogic.Proofs.Statement.Spacing
import SlotLogic.Proofs.Statement.Expectation
import SlotLogic.Proofs.Statement.Appending
import SlotLogic.Proofs.Evaluation.Complement
import SlotLogic.Proofs.Evaluation.Formula
import SlotLogic.Proofs.Evaluation.Reads
import SlotLogic.Proofs.Evaluation.Counterpart
import SlotLogic.Proofs.Evaluation.Relabelling
import SlotLogic.Proofs.Batch.Offender
import SlotLogic.Proofs.Batch.Dependence
import SlotLogic.Proofs.Rule.Displacement
import SlotLogic.Proofs.Batch.Density
import SlotLogic.Proofs.Decimal.RoundTrip
import SlotLogic.Proofs.Value.Assignment
import SlotLogic.Proofs.CommandLine.Slot
import SlotLogic.Proofs.CommandLine.Fault
