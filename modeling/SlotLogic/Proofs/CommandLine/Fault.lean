import SlotLogic.CommandLine.Run
import SlotLogic.Proofs.Statement.Outcome
import SlotLogic.Proofs.Statement.RoundTrip
import SlotLogic.Proofs.Tree.Drawing

/-!
Contract: a run of the command line ends without an output for an over-long numeral in the
statement or for a blank slot, and for nothing else.

Owns: the trees that can be shown, the plans of texts, and the faults of a run.

A statement names slots by three digits at most and has no foreign leaf. So what has been
read can be composed, drawn and written.

Does not own: the outputs of a run.
-/

set_option autoImplicit false

namespace SlotLogic

open SlotLogic.Text

/-- The tree of a text has no foreign leaf and no index beyond the limit of digits. -/
theorem root_of_text {lenient : Bool} {source : String} {plan : Plan}
    (built : (Plan.build lenient (.text source)).outcome = .ok plan) :
    plan.root.firstForeign? = none ∧ plan.root.firstOverlong? = none := by
  cases outcome : parse lenient source.toList with
  | error fault =>
      rw [build_of_fault outcome] at built
      cases built
  | ok expr =>
      obtain ⟨plan', built', root⟩ := build_of_parse outcome
      cases built.symm.trans built'
      constructor
      · have composes := Tree.make_fault evaluations plan.root
        rw [← Tree.compile, plan.composed] at composes
        exact composes.symm
      · rw [root, Tree.firstOverlong?_eq_none_iff, expr.slots_toTree]
        exact expr.natAbs_lt_of_isStatement (isStatement_of_parse outcome)

theorem build_text_fault {lenient : Bool} {source : String} {fault : BuildFault}
    (refused : (Plan.build lenient (.text source)).outcome = .error fault) :
    ∃ reading, fault = .unreadable reading := by
  cases outcome : parse lenient source.toList with
  | error reading =>
      rw [build_of_fault outcome] at refused
      exact ⟨reading, (Except.error.inj refused).symm⟩
  | ok expr =>
      obtain ⟨plan, built, -⟩ := build_of_parse outcome
      rw [built] at refused
      cases refused

namespace CommandLine

/-- A tree that can be drawn and written is shown as it is asked for. -/
theorem Request.views_ok (request : Request) {root : Tree Datum}
    (proper : root.firstForeign? = none) (short : root.firstOverlong? = none) :
    ∃ text, request.views root = .ok text := by
  obtain ⟨source, written⟩ : ∃ source, root.source = .ok source := by
    apply ok_of_faultOf?
    rw [Tree.source_fault, Tree.firstUnwritable?_of_short short, proper]
    rfl
  unfold Request.views
  rw [Tree.draw_eq short, written]
  cases request.tree <;> cases request.source <;> exact ⟨_, rfl⟩

theorem Request.row_fault {request : Request} {fault : RunFault}
    (refused : request.row = .error fault) : ∃ place, fault = .blankSlot place := by
  unfold Request.row at refused
  split at refused
  · exact ⟨_, (Except.error.inj refused).symm⟩
  · cases refused

theorem Job.run_fault {settings : Settings} {job : Job} {fault : RunFault}
    (refused : job.run settings = .error fault) :
    (∃ numeral, fault = .overlong numeral) ∨ ∃ place, fault = .blankSlot place := by
  simp only [Job.run] at refused
  cases outcome : (Plan.build settings.lenient (.text (String.ofList job.expression))).outcome with
  | error unread =>
      obtain ⟨reading, rfl⟩ := build_text_fault outcome
      rw [outcome] at refused
      cases reading with
      | overlong numeral => exact .inl ⟨numeral, (Except.error.inj refused).symm⟩
      | failure failure => cases refused
  | ok plan =>
      obtain ⟨proper, short⟩ := root_of_text outcome
      obtain ⟨text, shown⟩ := job.request.views_ok proper short
      rw [outcome] at refused
      simp only [shown] at refused
      cases assigned : job.request.row with
      | error unassigned =>
          rw [assigned] at refused
          cases refused
          exact .inr (Request.row_fault assigned)
      | ok row =>
          rw [assigned] at refused
          cases kept : Assignment.ofRow row with
          | error unkept => simp [kept, Bind.bind, Except.bind] at refused
          | ok assignment => simp [kept, Bind.bind, Except.bind] at refused

/-- Nothing else than an over-long numeral and a blank slot ends a run without an output. -/
theorem run_fault {settings : Settings} {arguments : List String} {fault : RunFault}
    (refused : run settings arguments = .error fault) :
    (∃ numeral, fault = .overlong numeral) ∨ ∃ place, fault = .blankSlot place := by
  unfold run at refused
  cases asked : readArguments (arguments.map String.toList) with
  | error stop =>
      rw [asked] at refused
      cases refused
  | ok job =>
      rw [asked] at refused
      exact job.run_fault refused

end CommandLine

end SlotLogic
