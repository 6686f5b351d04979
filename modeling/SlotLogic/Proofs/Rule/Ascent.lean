import SlotLogic.Proofs.Rule.Phrase

/-!
Contract: at which places a rule enters others, and where it leaves its cursor.

Owns: entries that ascend, and one law for each way to combine rules.

Entries that ascend go through the text once: at each place a few rules are entered,
each once, and what is entered later stands further on. A rule that matches has
entered others only before the place where it stops, so a rule that follows it
ascends from there. A rule that fails is not followed; if another rule is tried from
the same place, one of the two has entered nothing further on.

Does not own: which rules are entered where.
-/

set_option autoImplicit false

namespace SlotLogic

open SlotLogic.Text

/-! ## Ascending entries -/

/-- The entries of some rules at one place, in order. -/
def entriesAt (place : Nat) (names : List RuleName) : List RuleEntry :=
  names.map fun name => ⟨name, place⟩

/-- Rules that may be entered at one place: each once, and at most five. -/
structure Burst (names : List RuleName) : Prop where
  once : names.Nodup
  few : names.length ≤ 5

/-- Entries from one place on and before another, in bursts that stand further and
further on. -/
inductive Ascent : Nat → Nat → List RuleEntry → Prop where
  | done {low high : Nat} (ordered : low ≤ high) : Ascent low high []
  | burst {low high place : Nat} {names : List RuleName} {later : List RuleEntry}
      (above : low ≤ place) (burst : Burst names) (onward : Ascent (place + 1) high later) :
      Ascent low high (entriesAt place names ++ later)

namespace Ascent

variable {low middle high : Nat} {entries others : List RuleEntry}

theorem ordered (ascent : Ascent low high entries) : low ≤ high := by
  induction ascent with
  | done ordered => exact ordered
  | burst above _ _ inductionHypothesis => omega

theorem lower (below : low ≤ middle) (ascent : Ascent middle high entries) :
    Ascent low high entries := by
  cases ascent with
  | done ordered => exact .done (Nat.le_trans below ordered)
  | burst above burst onward => exact .burst (Nat.le_trans below above) burst onward

/-- What ascends from where other entries end goes on after them. -/
theorem append (first : Ascent low middle entries) (second : Ascent middle high others) :
    Ascent low high (entries ++ others) := by
  induction first with
  | done ordered => exact second.lower ordered
  | burst above burst _ inductionHypothesis =>
      rw [List.append_assoc]
      exact .burst above burst (inductionHypothesis second)

theorem within (ascent : Ascent low high entries) :
    ∀ entry ∈ entries, low ≤ entry.position ∧ entry.position < high := by
  induction ascent with
  | done _ => simp
  | burst above _ onward inductionHypothesis =>
      have past := onward.ordered
      intro entry member
      rcases List.mem_append.mp member with here | later
      · obtain ⟨name, -, rfl⟩ := List.mem_map.mp here
        exact ⟨above, past⟩
      · have further := inductionHypothesis entry later
        omega

/-- No rule is entered twice at one place. -/
theorem nodup (ascent : Ascent low high entries) : entries.Nodup := by
  induction ascent with
  | done _ => exact List.nodup_nil
  | @burst low high place names later above burst onward inductionHypothesis =>
      have here : (entriesAt place names).Nodup := by
        apply List.pairwise_map.mpr
        refine burst.once.imp ?_
        intro name other different same
        exact different (congrArg RuleEntry.rule same)
      refine List.nodup_append.mpr ⟨here, inductionHypothesis, ?_⟩
      rintro entry member other member' rfl
      obtain ⟨name, -, rfl⟩ := List.mem_map.mp member
      have further : place + 1 ≤ place := (onward.within _ member').1
      omega

theorem sorted (ascent : Ascent low high entries) :
    entries.Pairwise fun earlier later => earlier.position ≤ later.position := by
  induction ascent with
  | done _ => exact List.Pairwise.nil
  | @burst low high place names later above burst onward inductionHypothesis =>
      have here : ∀ entry ∈ entriesAt place names, entry.position = place := by
        simp [entriesAt]
      refine List.pairwise_append.mpr ⟨?_, inductionHypothesis, ?_⟩
      · apply List.pairwise_of_forall_mem_list
        intro earlier member later member'
        exact Nat.le_of_eq ((here earlier member).trans (here later member').symm)
      · intro earlier member later member'
        have further := (onward.within later member').1
        rw [here earlier member]
        omega

theorem length_le (ascent : Ascent low high entries) :
    entries.length ≤ 5 * (high - low) := by
  induction ascent with
  | done _ => simp
  | burst above burst onward inductionHypothesis =>
      have past := onward.ordered
      have few := burst.few
      rw [List.length_append, entriesAt, List.length_map]
      omega

end Ascent

/-! ## Replies that ascend -/

variable {α β : Type} {cursor : Cursor} {names : List RuleName}

/-- The place before which all rules on the way were entered: where a rule that
matches stops, and otherwise the place behind the end of the text. -/
def Reply.limit (reply : Reply α) : Nat :=
  match reply.outcome with
  | .ok _ => reply.cursor.position
  | .error _ => reply.cursor.text.length + 1

/-- The cursor is not moved back beyond its start, and the entries ascend from there. -/
structure Ascends (cursor : Cursor) (reply : Reply α) : Prop where
  leads : cursor.Leads reply.cursor
  ascent : Ascent cursor.position reply.limit reply.entries

/-- At the cursor itself some rules are entered, the first of these names, and all
others further on. A rule that matches has moved the cursor. -/
structure Opens (names : List RuleName) (cursor : Cursor) (reply : Reply α) : Prop where
  leads : cursor.Leads reply.cursor
  opens : ∃ here later, here <+: names ∧
    reply.entries = entriesAt cursor.position here ++ later ∧
    Ascent (cursor.position + 1) reply.limit later

/-- A rule that fails has moved the cursor back. -/
structure Settles (names : List RuleName) (cursor : Cursor) (reply : Reply α) : Prop
    extends Opens names cursor reply where
  restored : ∀ failure, reply.outcome = .error (.failure failure) → reply.cursor = cursor

theorem Burst.of_begins {here : List RuleName} (burst : Burst names) (begins : here <+: names) :
    Burst here :=
  ⟨begins.sublist.nodup burst.once, Nat.le_trans begins.length_le burst.few⟩

theorem Opens.ascends {reply : Reply α} (burst : Burst names) (opens : Opens names cursor reply) :
    Ascends cursor reply := by
  obtain ⟨leads, here, later, begins, entries, ascent⟩ := opens
  refine ⟨leads, ?_⟩
  rw [entries]
  exact .burst (Nat.le_refl _) (burst.of_begins begins) ascent

/-- A rule that matches has moved the cursor on. -/
theorem Opens.advances {reply : Reply α} {value : α} (opens : Opens names cursor reply)
    (outcome : reply.outcome = .ok value) : cursor.position < reply.cursor.position := by
  obtain ⟨-, here, later, -, -, ascent⟩ := opens
  have ordered := ascent.ordered
  rw [Reply.limit, outcome] at ordered
  exact ordered

/-- No rule is entered behind the end of the text. -/
theorem Ascends.limit_le {reply : Reply α} (ascends : Ascends cursor reply) :
    reply.limit ≤ cursor.text.length + 1 := by
  have valid := ascends.leads.valid
  unfold Cursor.Valid at valid
  rw [ascends.leads.text] at valid
  rw [Reply.limit, ascends.leads.text]
  split <;> omega

/-! ## Sequences -/

theorem ascends_ok {value : α} {finish : Cursor} (leads : cursor.Leads finish) :
    Ascends cursor (⟨.ok value, finish, []⟩ : Reply α) :=
  ⟨leads, .done leads.forward⟩

theorem ascends_error {fault : ReadFault} {finish : Cursor} (leads : cursor.Leads finish) :
    Ascends cursor (⟨.error fault, finish, []⟩ : Reply α) := by
  have valid := leads.valid
  have forward := leads.forward
  unfold Cursor.Valid at valid
  refine ⟨leads, .done ?_⟩
  show cursor.position ≤ finish.text.length + 1
  omega

theorem opens_error {fault : ReadFault} {finish : Cursor} (leads : cursor.Leads finish) :
    Opens names cursor (⟨.error fault, finish, []⟩ : Reply α) := by
  have valid := leads.valid
  have forward := leads.forward
  unfold Cursor.Valid at valid
  refine ⟨leads, [], [], List.nil_prefix, rfl, .done ?_⟩
  show cursor.position + 1 ≤ finish.text.length + 1
  omega

theorem ascends_pure {value : α} (valid : cursor.Valid) :
    Ascends cursor ((pure value : Rule α) cursor) :=
  ascends_ok (.refl valid)

theorem ascends_fail {wanted : Wanted} {found : Token} (valid : cursor.Valid) :
    Ascends cursor ((Rule.fail wanted found : Rule α) cursor) :=
  ascends_error (.refl valid)

/-- Of a sequence, what is entered further on ascends if it does so in both rules. -/
private theorem later_bind {low : Nat} {rule : Rule α} {next : α → Rule β}
    {here later : List RuleEntry} (entries : (rule cursor).entries = here ++ later)
    (ascent : Ascent low (rule cursor).limit later)
    (second : ∀ value, (rule cursor).outcome = .ok value →
      Ascends (rule cursor).cursor (next value (rule cursor).cursor)) :
    ∃ whole, ((rule >>= next) cursor).entries = here ++ whole ∧
      Ascent low ((rule >>= next) cursor).limit whole := by
  rw [Reply.limit] at ascent
  cases outcome : (rule cursor).outcome with
  | error fault =>
      rw [outcome] at ascent
      rw [bind_error outcome]
      exact ⟨later, entries, ascent⟩
  | ok value =>
      rw [outcome] at ascent
      rw [bind_ok outcome]
      refine ⟨later ++ (next value (rule cursor).cursor).entries, ?_,
        ascent.append (second value outcome).ascent⟩
      rw [entries, List.append_assoc]

private theorem leads_bind {rule : Rule α} {next : α → Rule β}
    (leads : cursor.Leads (rule cursor).cursor)
    (second : ∀ value, (rule cursor).outcome = .ok value →
      Ascends (rule cursor).cursor (next value (rule cursor).cursor)) :
    cursor.Leads ((rule >>= next) cursor).cursor := by
  cases outcome : (rule cursor).outcome with
  | error fault =>
      rw [bind_error outcome]
      exact leads
  | ok value =>
      rw [bind_ok outcome]
      exact leads.trans (second value outcome).leads

theorem ascends_bind {rule : Rule α} {next : α → Rule β} (first : Ascends cursor (rule cursor))
    (second : ∀ value finish, cursor.Leads finish → Ascends finish (next value finish)) :
    Ascends cursor ((rule >>= next) cursor) := by
  have onward := fun value (_ : (rule cursor).outcome = .ok value) =>
    second value (rule cursor).cursor first.leads
  have nothing : (rule cursor).entries = [] ++ (rule cursor).entries := rfl
  obtain ⟨whole, entries, ascent⟩ := later_bind nothing first.ascent onward
  refine ⟨leads_bind first.leads onward, ?_⟩
  rw [entries]
  exact ascent

theorem opens_bind {rule : Rule α} {next : α → Rule β} (first : Opens names cursor (rule cursor))
    (second : ∀ value finish, cursor.Leads finish → cursor.position < finish.position →
      Ascends finish (next value finish)) :
    Opens names cursor ((rule >>= next) cursor) := by
  have onward := fun value (outcome : (rule cursor).outcome = .ok value) =>
    second value (rule cursor).cursor first.leads (first.advances outcome)
  obtain ⟨here, later, begins, entries, ascent⟩ := first.opens
  obtain ⟨whole, entries, ascent⟩ := later_bind entries ascent onward
  exact ⟨leads_bind first.leads onward, here, whole, begins, entries, ascent⟩

/-- A rule that records its name is entered at its cursor before all others. -/
theorem settles_enter (name : RuleName) {rule : Rule α}
    (settles : Settles names cursor (rule cursor)) :
    Settles (name :: names) cursor ((Rule.enter name >>= fun _ => rule) cursor) := by
  obtain ⟨⟨leads, here, later, begins, entries, ascent⟩, restored⟩ := settles
  refine ⟨⟨leads, name :: here, later, ?_, ?_, ascent⟩, restored⟩
  · exact List.cons_prefix_cons.mpr ⟨rfl, begins⟩
  · show [⟨name, cursor.position⟩] ++ (rule cursor).entries = _
    rw [entries]
    rfl

/-- A rule that is restored fails where it started. -/
theorem restoring_failure {rule : Rule α} {failure : Failure}
    (leads : cursor.Leads (rule cursor).cursor)
    (fails : (Rule.restoring rule cursor).outcome = .error (.failure failure)) :
    (Rule.restoring rule cursor).cursor = cursor := by
  unfold Rule.restoring Rule.returning at fails ⊢
  simp only at fails ⊢
  split at fails
  · exact leads.moveTo_start
  · rename_i other
    exact absurd fails (other failure)

theorem settles_restoring {rule : Rule α} (opens : Opens names cursor (rule cursor)) :
    Settles names cursor (Rule.restoring rule cursor) := by
  refine ⟨?_, fun failure => restoring_failure opens.leads⟩
  obtain ⟨leads, here, later, begins, entries, ascent⟩ := opens
  unfold Rule.restoring Rule.returning
  simp only
  split
  · rename_i failure outcome
    rw [Reply.limit, outcome, leads.text] at ascent
    rw [leads.moveTo_start]
    exact ⟨.refl leads.valid_start, here, later, begins, entries, ascent⟩
  · exact ⟨leads, here, later, begins, entries, ascent⟩

/-- After a rule that fails where it started, it makes no difference which of its exits
are guarded. -/
theorem followedBy_eq_restoring {rule : Rule α} {next : α → Rule β} (valid : cursor.Valid)
    (still : ∀ failure, (rule cursor).outcome = .error (.failure failure) →
      (rule cursor).cursor = cursor) :
    rule.followedBy next cursor = Rule.restoring (rule >>= next) cursor := by
  unfold Rule.restoring Rule.returning
  cases outcome : (rule cursor).outcome with
  | ok value =>
      rw [followedBy_ok outcome, bind_ok outcome]
      unfold Rule.returning
      simp only
      split <;> rfl
  | error fault =>
      rw [followedBy_error outcome, bind_error outcome]
      cases fault with
      | overlong numeral => rfl
      | failure failure =>
          simp only
          rw [still failure outcome, (Cursor.Leads.refl valid).moveTo_start]

/-- A rule that settles and a guarded one after it settle together. -/
theorem settles_followedBy {rule : Rule α} {next : α → Rule β}
    (first : Settles names cursor (rule cursor))
    (second : ∀ value finish, cursor.Leads finish → cursor.position < finish.position →
      Ascends finish (next value finish)) :
    Settles names cursor (rule.followedBy next cursor) := by
  rw [followedBy_eq_restoring first.leads.valid_start first.restored]
  exact settles_restoring (opens_bind first.toOpens second)

/-! ## Tokens -/

theorem ascends_takeToken (valid : cursor.Valid) : Ascends cursor (Rule.takeToken cursor) := by
  have leads := Cursor.next_leads valid
  cases taken : cursor.next.1 with
  | error numeral =>
      rw [takeToken_overlong taken]
      exact ascends_error leads
  | ok token =>
      rw [takeToken_ok taken]
      exact ascends_ok leads

/-- Behind a token that is not final the cursor has moved on. -/
theorem opens_takeToken {next : Token → Rule α} (valid : cursor.Valid)
    (decides : ∀ token, cursor.next.1 = .ok token →
      (token.kind.isFinal = false ∧ Ascends cursor.next.2 (next token cursor.next.2)) ∨
      ∃ wanted, next token = Rule.fail wanted token) :
    Opens names cursor ((Rule.takeToken >>= next) cursor) := by
  have leads := Cursor.next_leads valid
  cases taken : cursor.next.1 with
  | error numeral =>
      rw [takeToken_bind_overlong taken]
      exact opens_error leads
  | ok token =>
      rw [takeToken_bind taken]
      rcases decides token taken with ⟨passed, later⟩ | ⟨wanted, fails⟩
      · have start := Cursor.next_start valid taken
        have passes := Cursor.next_passes taken passed
        exact ⟨leads.trans later.leads, [], _, List.nil_prefix, rfl,
          later.ascent.lower (by omega)⟩
      · rw [fails]
        exact opens_error leads

theorem ascends_consume (kind : Kind) (valid : cursor.Valid) :
    Ascends cursor (Rule.consume kind cursor) := by
  have leads := Cursor.next_leads valid
  rw [consume_eq kind valid]
  split
  · exact ascends_error leads
  · split
    · exact ascends_ok leads
    · exact ascends_error (.refl valid)

/-- A token that is demanded in vain is not taken, whatever its kind. -/
theorem consume_restored {kind : Kind} {failure : Failure} (valid : cursor.Valid)
    (fails : (Rule.consume kind cursor).outcome = .error (.failure failure)) :
    (Rule.consume kind cursor).cursor = cursor := by
  rw [consume_eq kind valid] at fails ⊢
  split at fails
  · cases fails
  · split at fails
    · cases fails
    · rename_i other
      rw [if_neg other]

theorem settles_consume {kind : Kind} (passes : kind.isFinal = false) (valid : cursor.Valid) :
    Settles [] cursor (Rule.consume kind cursor) := by
  apply settles_restoring
  apply opens_takeToken valid
  intro token _
  by_cases same : token.kind = kind
  · left
    rw [if_pos same, same]
    exact ⟨passes, ascends_pure (Cursor.next_leads valid).valid⟩
  · right
    exact ⟨.token kind, if_neg same⟩

theorem ascends_accepts (kind : Kind) (valid : cursor.Valid) :
    Ascends cursor (Rule.accepts kind cursor) := by
  have leads := Cursor.next_leads valid
  rw [accepts_eq kind valid]
  split
  · exact ascends_error leads
  · split
    · exact ascends_ok leads
    · exact ascends_ok (.refl valid)

/-! ## Choices and chains -/

/-- Two rules are tried from one place. If the first one fails, it has entered nothing
further on, or the second one enters nothing at all. -/
theorem settles_either {merge : Failure → Failure → Failure} {first second : Rule α}
    {others : List RuleName} (opens : Opens names cursor (first cursor))
    (opens' : Opens others cursor (second cursor))
    (quiet : ∀ failure, (first cursor).outcome = .error (.failure failure) →
      (first cursor).entries = entriesAt cursor.position names ∨
        (second cursor).entries = [] ∧ ∃ fault, (second cursor).outcome = .error fault) :
    Settles (names ++ others) cursor (Rule.either merge first second cursor) := by
  obtain ⟨leads, here, later, begins, entries, ascent⟩ := opens
  obtain ⟨leads', here', later', begins', entries', ascent'⟩ := opens'
  unfold Rule.either
  simp only
  split
  · rename_i failure outcome
    rw [leads.moveTo_start]
    -- What both rules enter, up to the place that the second one gives.
    have both : ∃ here later, here <+: names ++ others ∧
        (first cursor).entries ++ (second cursor).entries =
          entriesAt cursor.position here ++ later ∧
        Ascent (cursor.position + 1) (second cursor).limit later := by
      rcases quiet failure outcome with still | ⟨nothing, fault, fails⟩
      · refine ⟨names ++ here', later', List.prefix_append_right_inj names |>.mpr begins', ?_,
          ascent'⟩
        rw [still, entries', ← List.append_assoc]
        simp [entriesAt]
      · refine ⟨here, later, begins.trans (List.prefix_append names others), ?_, ?_⟩
        · rw [nothing, List.append_nil, entries]
        · rw [Reply.limit, outcome, leads.text] at ascent
          rw [Reply.limit, fails, leads'.text]
          exact ascent
    obtain ⟨here, later, begins, entries, ascent⟩ := both
    split
    · rename_i failure' outcome'
      rw [leads'.moveTo_start]
      rw [Reply.limit, outcome', leads'.text] at ascent
      exact ⟨⟨.refl leads.valid_start, here, later, begins, entries, ascent⟩, fun _ _ => rfl⟩
    · rename_i other
      refine ⟨⟨leads', here, later, begins, entries, ascent⟩, ?_⟩
      intro failure' fails
      exact absurd fails (other failure')
  · rename_i other
    have wider := begins.trans (List.prefix_append names others)
    refine ⟨⟨leads, here, later, wider, entries, ascent⟩, ?_⟩
    intro failure fails
    exact absurd fails (other failure)

theorem ascends_links (operator : Kind) (build : α → α → α) {operand : Rule α} (bound : Nat)
    {folded : α} (burst : Burst names) (valid : cursor.Valid)
    (operands : ∀ later, cursor.Leads later → Opens names later (operand later)) :
    Ascends cursor (Rule.links operator build operand bound folded cursor) := by
  induction bound generalizing cursor folded with
  | zero => exact ascends_pure valid
  | succ bound inductionHypothesis =>
      apply ascends_bind (ascends_accepts operator valid)
      intro found afterOperator leads
      cases found with
      | false => exact ascends_pure leads.valid
      | true =>
          apply ascends_bind ((operands afterOperator leads).ascends burst)
          intro right afterOperand onward
          exact inductionHypothesis onward.valid fun later further =>
            operands later ((leads.trans onward).trans further)

theorem settles_chain (operator : Kind) (build : α → α → α) {operand : Rule α}
    (burst : Burst names) (valid : cursor.Valid)
    (operands : ∀ later, cursor.Leads later → Settles names later (operand later)) :
    Settles names cursor (Rule.chain operator build operand cursor) := by
  apply settles_followedBy (operands cursor (.refl valid))
  intro first afterFirst leads _
  have counted : Ascends afterFirst (Rule.charactersLeft afterFirst) :=
    ascends_ok (.refl leads.valid)
  apply ascends_bind counted
  intro bound later still
  exact ascends_links operator build bound burst still.valid fun further onward =>
    (operands further ((leads.trans still).trans onward)).toOpens

end SlotLogic
