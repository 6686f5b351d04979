import SlotLogic.Proofs.Grammar.Demand
import SlotLogic.Proofs.Token.Reading

/-!
Contract: what the reply of a rule says about the tokens at its cursor.

Owns: what sequences and restored rules reply, the agreement of a reply with demands,
and one law of agreement for each way to combine rules.

A rule that matches has read a word that its demands run through, and at the next
token nothing more of them needs to come. A rule that fails names the first token
that its demands refuse, and what they wanted there. An over-long numeral is met
behind tokens that were read, while something of the demands has yet to come.

Does not own: the rules of statements.
-/

set_option autoImplicit false

namespace SlotLogic

open SlotLogic.Text Demand

variable {α β : Type}

/-! ## Combined rules -/

section

variable {cursor : Cursor}

/-- After a rule that matches the next one goes on where it stopped. -/
theorem bind_ok {rule : Rule α} {next : α → Rule β} {value : α}
    (matched : (rule cursor).outcome = .ok value) :
    (rule >>= next) cursor =
      ⟨(next value (rule cursor).cursor).outcome, (next value (rule cursor).cursor).cursor,
        (rule cursor).entries ++ (next value (rule cursor).cursor).entries⟩ := by
  show Reply.andThen (rule cursor) next = _
  unfold Reply.andThen
  rw [matched]

/-- After a fault nothing goes on. -/
theorem bind_error {rule : Rule α} {next : α → Rule β} {fault : ReadFault}
    (fails : (rule cursor).outcome = .error fault) :
    (rule >>= next) cursor = ⟨.error fault, (rule cursor).cursor, (rule cursor).entries⟩ := by
  show Reply.andThen (rule cursor) next = _
  unfold Reply.andThen
  rw [fails]

theorem returning_outcome (start : Nat) (rule : Rule α) :
    (Rule.returning start rule cursor).outcome = (rule cursor).outcome := by
  unfold Rule.returning
  simp only
  split
  · rename_i failure fails
    exact fails.symm
  · rfl

theorem returning_entries (start : Nat) (rule : Rule α) :
    (Rule.returning start rule cursor).entries = (rule cursor).entries := by
  unfold Rule.returning
  simp only
  split <;> rfl

/-- After a rule that matches, what follows it is guarded. -/
theorem followedBy_ok {rule : Rule α} {next : α → Rule β} {value : α}
    (matched : (rule cursor).outcome = .ok value) :
    rule.followedBy next cursor =
      ⟨(Rule.returning cursor.position (next value) (rule cursor).cursor).outcome,
        (Rule.returning cursor.position (next value) (rule cursor).cursor).cursor,
        (rule cursor).entries ++
          (Rule.returning cursor.position (next value) (rule cursor).cursor).entries⟩ :=
  bind_ok matched

/-- A rule that fails leaves its cursor, whatever was to follow. -/
theorem followedBy_error {rule : Rule α} {next : α → Rule β} {fault : ReadFault}
    (fails : (rule cursor).outcome = .error fault) :
    rule.followedBy next cursor = ⟨.error fault, (rule cursor).cursor, (rule cursor).entries⟩ :=
  bind_error fails

end

/-! ## Agreement with demands -/

/-- A word is read that the demands run through, and that may end there. -/
def Matched (demands : List Demand) (Holds : List Token → α → Prop) (cursor : Cursor)
    (value : α) (finish : Cursor) : Prop :=
  ∃ tokens rest, cursor.Reads tokens finish ∧ Holds tokens value ∧
    run demands (tokens.map Token.kind) = some rest ∧
    ∀ token, finish.next.1 = .ok token → reactAll rest token.kind = .skipped

/-- After a word that the demands run through, they refuse the token of a failure. -/
def Refused (demands : List Demand) (cursor : Cursor) (failure : Failure) : Prop :=
  ∃ tokens later rest, cursor.Reads tokens later ∧ later.next.1 = .ok failure.found ∧
    run demands (tokens.map Token.kind) = some rest ∧
    reactAll rest failure.found.kind = .refused failure.wanted

/-- Behind a word that the demands run through, and that does not meet them to their
end, stands a numeral that is too long. -/
def MeetsOverlong (demands : List Demand) (cursor : Cursor) (numeral : OverlongNumeral) : Prop :=
  ∃ tokens later rest, cursor.Reads tokens later ∧ later.next.1 = .error numeral ∧
    run demands (tokens.map Token.kind) = some rest ∧ rest ≠ []

/-- A reply agrees with demands, and what it matched holds. -/
inductive Answers (demands : List Demand) (Holds : List Token → α → Prop) (cursor : Cursor) :
    Reply α → Prop where
  | ok {value : α} {finish : Cursor} {entries : List RuleEntry}
      (matched : Matched demands Holds cursor value finish) :
      Answers demands Holds cursor ⟨.ok value, finish, entries⟩
  | failure {failure : Failure} {back : Cursor} {entries : List RuleEntry}
      (leads : cursor.Leads back) (refused : Refused demands cursor failure) :
      Answers demands Holds cursor ⟨.error (.failure failure), back, entries⟩
  | overlong {numeral : OverlongNumeral} {stopped : Cursor} {entries : List RuleEntry}
      (leads : cursor.Leads stopped) (meets : MeetsOverlong demands cursor numeral) :
      Answers demands Holds cursor ⟨.error (.overlong numeral), stopped, entries⟩

variable {demands lower : List Demand} {Holds : List Token → α → Prop} {cursor : Cursor}

theorem Answers.leads {reply : Reply α} (valid : cursor.Valid)
    (answers : Answers demands Holds cursor reply) : cursor.Leads reply.cursor := by
  cases answers with
  | ok matched =>
      obtain ⟨tokens, rest, reads, -⟩ := matched
      exact reads.leads valid
  | failure leads => exact leads
  | overlong leads => exact leads

/-- What a rule matched may be described in another way. -/
theorem Answers.imp {Holds' : List Token → α → Prop} {reply : Reply α}
    (answers : Answers demands Holds cursor reply)
    (weaker : ∀ tokens value, Holds tokens value → Holds' tokens value) :
    Answers demands Holds' cursor reply := by
  cases answers with
  | ok matched =>
      obtain ⟨tokens, rest, reads, holds, word⟩ := matched
      exact .ok ⟨tokens, rest, reads, weaker _ _ holds, word⟩
  | failure leads refused => exact .failure leads refused
  | overlong leads meets => exact .overlong leads meets

theorem Answers.matched {reply : Reply α} {value : α}
    (answers : Answers demands Holds cursor reply) (outcome : reply.outcome = .ok value) :
    Matched demands Holds cursor value reply.cursor := by
  cases answers with
  | ok matched =>
      cases outcome
      exact matched
  | failure leads refused => cases outcome
  | overlong leads meets => cases outcome

theorem Answers.refused {reply : Reply α} {failure : Failure}
    (answers : Answers demands Holds cursor reply)
    (outcome : reply.outcome = .error (.failure failure)) : Refused demands cursor failure := by
  cases answers with
  | ok matched => cases outcome
  | failure leads refused =>
      cases outcome
      exact refused
  | overlong leads meets => cases outcome

theorem Answers.meetsOverlong {reply : Reply α} {numeral : OverlongNumeral}
    (answers : Answers demands Holds cursor reply)
    (outcome : reply.outcome = .error (.overlong numeral)) :
    MeetsOverlong demands cursor numeral := by
  cases answers with
  | ok matched => cases outcome
  | failure leads refused => cases outcome
  | overlong leads meets =>
      cases outcome
      exact meets

/-- From one cursor, at most one list of tokens meets demands to their end. -/
theorem tokens_unique {tokens others : List Token} {finish finish' : Cursor}
    (reads : cursor.Reads tokens finish) (reads' : cursor.Reads others finish')
    (runs : run demands (tokens.map Token.kind) = some [])
    (runs' : run demands (others.map Token.kind) = some []) : tokens = others := by
  rcases reads.extends_or_extended reads' with ⟨more, rfl, -⟩ | ⟨more, rfl, -⟩
  · rw [List.map_append] at runs'
    have nothing := eq_nil_of_run_append runs runs'
    rw [List.map_eq_nil_iff.mp nothing, List.append_nil]
  · rw [List.map_append] at runs
    have nothing := eq_nil_of_run_append runs' runs
    rw [List.map_eq_nil_iff.mp nothing, List.append_nil]

/-- Where tokens can be read that meet the demands to their end, none is refused. -/
theorem Refused.not_run {failure : Failure} {tokens : List Token} {finish : Cursor}
    (refused : Refused demands cursor failure) (reads : cursor.Reads tokens finish) :
    run demands (tokens.map Token.kind) ≠ some [] := by
  intro runs
  obtain ⟨read, later, rest, reads', found, runs', refuses⟩ := refused
  -- Either list begins the other, and after the demands are met no token is refused.
  rcases reads.extends_or_extended reads' with ⟨more, rfl, -⟩ | ⟨more, rfl, onward⟩
  · rw [List.map_append] at runs'
    have nothing := eq_nil_of_run_append runs runs'
    rw [nothing, List.append_nil, runs] at runs'
    cases runs'
    cases refuses
  · cases onward with
    | nil =>
        rw [List.append_nil, runs'] at runs
        cases runs
        cases refuses
    | cons taken _ =>
        cases found.symm.trans taken
        rw [List.map_append] at runs
        exact not_run_of_refused runs' refuses runs

/-- Where a token is refused, nothing is run through beyond it. -/
theorem not_run_beyond_refused {tokens more : List Token} {middle finish : Cursor} {token : Token}
    {rest last : List Demand} {wanted : Wanted} (found : middle.next.1 = .ok token)
    (runs : run demands (tokens.map Token.kind) = some rest)
    (refuses : reactAll rest token.kind = .refused wanted) (onward : middle.Reads more finish)
    (runs' : run demands ((tokens ++ more).map Token.kind) = some last) : more = [] := by
  cases onward with
  | nil => rfl
  | cons taken _ =>
      cases found.symm.trans taken
      rw [List.map_append] at runs'
      exact absurd runs' (not_run_of_refused runs refuses)

/-- From one cursor, demands refuse one token and want one thing there. -/
theorem Refused.unique {failure failure' : Failure} (refused : Refused demands cursor failure)
    (refused' : Refused demands cursor failure') : failure = failure' := by
  obtain ⟨wanted, found⟩ := failure
  obtain ⟨wanted', found'⟩ := failure'
  obtain ⟨read, later, rest, reads, taken, runs, refuses⟩ := refused
  obtain ⟨read', later', rest', reads', taken', runs', refuses'⟩ := refused'
  have same : read = read' := by
    rcases reads.extends_or_extended reads' with ⟨more, rfl, onward⟩ | ⟨more, rfl, onward⟩
    · rw [not_run_beyond_refused taken runs refuses onward runs', List.append_nil]
    · rw [not_run_beyond_refused taken' runs' refuses' onward runs, List.append_nil]
  subst same
  cases reads.finish_unique reads'
  cases taken.symm.trans taken'
  cases runs.symm.trans runs'
  cases refuses.symm.trans refuses'
  rfl

/-- Where tokens can be read that meet the demands to their end, no numeral is met that
is too long. -/
theorem MeetsOverlong.not_run {numeral : OverlongNumeral} {tokens : List Token} {finish : Cursor}
    (meets : MeetsOverlong demands cursor numeral) (reads : cursor.Reads tokens finish) :
    run demands (tokens.map Token.kind) ≠ some [] := by
  intro runs
  obtain ⟨read, later, rest, reads', overlong, runs', unmet⟩ := meets
  obtain ⟨more, rfl, -⟩ := reads'.before_overlong overlong reads
  rw [List.map_append] at runs'
  have nothing := eq_nil_of_run_append runs runs'
  rw [nothing, List.append_nil, runs] at runs'
  cases runs'
  exact unmet rfl

/-- In front of a numeral that is too long no token is refused. -/
theorem MeetsOverlong.not_refused {numeral : OverlongNumeral} {failure : Failure}
    (meets : MeetsOverlong demands cursor numeral) : ¬Refused demands cursor failure := by
  rintro ⟨read, later, rest, reads, found, runs, refuses⟩
  obtain ⟨read', later', rest', reads', overlong, runs', -⟩ := meets
  obtain ⟨more, rfl, onward⟩ := reads'.before_overlong overlong reads
  cases onward with
  | nil => cases overlong.symm.trans found
  | cons taken _ =>
      cases found.symm.trans taken
      rw [List.map_append] at runs'
      exact not_run_of_refused runs refuses runs'

theorem MeetsOverlong.unique {numeral numeral' : OverlongNumeral}
    (meets : MeetsOverlong demands cursor numeral)
    (meets' : MeetsOverlong demands cursor numeral') : numeral = numeral' := by
  obtain ⟨read, later, -, reads, overlong, -⟩ := meets
  obtain ⟨read', later', -, reads', overlong', -⟩ := meets'
  obtain ⟨more, rfl, onward⟩ := reads.before_overlong overlong reads'
  cases onward with
  | nil =>
      cases overlong.symm.trans overlong'
      rfl
  | cons taken _ => cases overlong'.symm.trans taken

/-- Tokens that meet the demands to their end are matched, whatever follows them. -/
theorem Answers.ok_of_reads {reply : Reply α} {tokens : List Token} {finish : Cursor}
    (answers : Answers demands Holds cursor reply)
    (closed : ∀ read value, Holds read value → run demands (read.map Token.kind) = some [])
    (reads : cursor.Reads tokens finish) (runs : run demands (tokens.map Token.kind) = some []) :
    ∃ value, reply.outcome = .ok value ∧ reply.cursor = finish ∧ Holds tokens value := by
  cases outcome : reply.outcome with
  | ok value =>
      obtain ⟨read, rest, reads', holds, -⟩ := answers.matched outcome
      have same := tokens_unique reads reads' runs (closed read value holds)
      subst same
      exact ⟨value, rfl, reads'.finish_unique reads, holds⟩
  | error fault =>
      cases fault with
      | failure failure => exact absurd runs ((answers.refused outcome).not_run reads)
      | overlong numeral => exact absurd runs ((answers.meetsOverlong outcome).not_run reads)

/-- A numeral that is too long comes out exactly if it is met. -/
theorem Answers.overlong_iff {reply : Reply α} {numeral : OverlongNumeral}
    (answers : Answers demands Holds cursor reply)
    (closed : ∀ read value, Holds read value → run demands (read.map Token.kind) = some []) :
    reply.outcome = .error (.overlong numeral) ↔ MeetsOverlong demands cursor numeral := by
  refine ⟨answers.meetsOverlong, fun meets => ?_⟩
  cases outcome : reply.outcome with
  | ok value =>
      obtain ⟨read, rest, reads, holds, -⟩ := answers.matched outcome
      exact absurd (closed read value holds) (meets.not_run reads)
  | error fault =>
      cases fault with
      | failure failure => exact absurd (answers.refused outcome) meets.not_refused
      | overlong numeral' => rw [meets.unique (answers.meetsOverlong outcome)]

/-- A failure comes out exactly if its token is refused. -/
theorem Answers.failure_iff {reply : Reply α} {failure : Failure}
    (answers : Answers demands Holds cursor reply)
    (closed : ∀ read value, Holds read value → run demands (read.map Token.kind) = some []) :
    reply.outcome = .error (.failure failure) ↔ Refused demands cursor failure := by
  refine ⟨answers.refused, fun refused => ?_⟩
  cases outcome : reply.outcome with
  | ok value =>
      obtain ⟨read, rest, reads, holds, -⟩ := answers.matched outcome
      exact absurd (closed read value holds) (refused.not_run reads)
  | error fault =>
      cases fault with
      | failure failure' => rw [refused.unique (answers.refused outcome)]
      | overlong numeral => exact absurd refused (answers.meetsOverlong outcome).not_refused

/-! ## Demands that react alike -/

variable {way : List Demand}

/-- Two lists of demands react alike to the next token. -/
def ReactAlike (demands way : List Demand) (cursor : Cursor) : Prop :=
  ∀ token, cursor.next.1 = .ok token → reactAll demands token.kind = reactAll way token.kind

theorem Matched.of_alike {value : α} {finish : Cursor} (alike : ReactAlike demands way cursor)
    (matched : Matched way Holds cursor value finish) :
    Matched demands Holds cursor value finish := by
  obtain ⟨tokens, rest, reads, holds, runs, skips⟩ := matched
  cases reads with
  | nil =>
      cases runs
      refine ⟨[], demands, .nil cursor, holds, rfl, ?_⟩
      intro token taken
      rw [alike token taken]
      exact skips token taken
  | cons taken reads =>
      obtain ⟨later, reaction, after⟩ := run_cons.mp runs
      rw [← alike _ taken] at reaction
      exact ⟨_, rest, .cons taken reads, holds, run_cons.mpr ⟨later, reaction, after⟩, skips⟩

theorem Refused.of_alike {failure : Failure} (alike : ReactAlike demands way cursor)
    (refused : Refused way cursor failure) : Refused demands cursor failure := by
  obtain ⟨tokens, later, rest, reads, found, runs, refuses⟩ := refused
  cases reads with
  | nil =>
      cases runs
      rw [← alike _ found] at refuses
      exact ⟨[], cursor, demands, .nil cursor, found, rfl, refuses⟩
  | cons taken reads =>
      obtain ⟨middle, reaction, after⟩ := run_cons.mp runs
      rw [← alike _ taken] at reaction
      exact ⟨_, later, rest, .cons taken reads, found, run_cons.mpr ⟨middle, reaction, after⟩,
        refuses⟩

theorem MeetsOverlong.of_alike {numeral : OverlongNumeral}
    (alike : ReactAlike demands way cursor) (unmet : way ≠ [] → demands ≠ [])
    (meets : MeetsOverlong way cursor numeral) : MeetsOverlong demands cursor numeral := by
  obtain ⟨tokens, later, rest, reads, found, runs, more⟩ := meets
  cases reads with
  | nil =>
      cases runs
      exact ⟨[], cursor, demands, .nil cursor, found, rfl, unmet more⟩
  | cons taken reads =>
      obtain ⟨middle, reaction, after⟩ := run_cons.mp runs
      rw [← alike _ taken] at reaction
      exact ⟨_, later, rest, .cons taken reads, found, run_cons.mpr ⟨middle, reaction, after⟩,
        more⟩

theorem Answers.of_alike {reply : Reply α} (alike : ReactAlike demands way cursor)
    (unmet : way ≠ [] → demands ≠ []) (answers : Answers way Holds cursor reply) :
    Answers demands Holds cursor reply := by
  cases answers with
  | ok matched => exact .ok (matched.of_alike alike)
  | failure leads refused => exact .failure leads (refused.of_alike alike)
  | overlong leads meets => exact .overlong leads (meets.of_alike alike unmet)

/-! ## Sequences -/

/-- An answer that is given behind tokens, for what was left of the demands there, is an
answer for all of them. -/
theorem Answers.resume {read : List Token} {middle : Cursor} {later : List Demand}
    {reply : Reply α} (entries : List RuleEntry) (valid : cursor.Valid)
    (reads : cursor.Reads read middle) (runs : run demands (read.map Token.kind) = some later)
    (answers : Answers later (fun more value => Holds (read ++ more) value) middle reply) :
    Answers demands Holds cursor ⟨reply.outcome, reply.cursor, entries⟩ := by
  have onward := reads.leads valid
  have whole : ∀ {more : List Token} {rest : List Demand},
      run later (more.map Token.kind) = some rest →
        run demands ((read ++ more).map Token.kind) = some rest := by
    intro more rest after
    rw [List.map_append, run_append, runs]
    exact after
  cases answers with
  | ok matched =>
      obtain ⟨more, rest, reads', holds, after, skips⟩ := matched
      exact .ok ⟨read ++ more, rest, reads.append reads', holds, whole after, skips⟩
  | failure leads refused =>
      obtain ⟨more, last, rest, reads', found, after, refuses⟩ := refused
      exact .failure (onward.trans leads)
        ⟨read ++ more, last, rest, reads.append reads', found, whole after, refuses⟩
  | overlong leads meets =>
      obtain ⟨more, last, rest, reads', found, after, unmet⟩ := meets
      exact .overlong (onward.trans leads)
        ⟨read ++ more, last, rest, reads.append reads', found, whole after, unmet⟩

/-- After a rule that matches, the next one answers for what stands below. -/
theorem Answers.andThen {reply : Reply α} {next : α → Rule β} {First : List Token → α → Prop}
    {Holds : List Token → β → Prop} (valid : cursor.Valid)
    (first : Answers demands First cursor reply)
    (second : ∀ tokens value finish, cursor.Reads tokens finish → First tokens value →
      Answers lower (fun others result => Holds (tokens ++ others) result) finish
        (next value finish)) :
    Answers (demands ++ lower) Holds cursor (reply.andThen next) := by
  cases first with
  | failure leads refused =>
      obtain ⟨tokens, later, rest, reads, found, runs, refuses⟩ := refused
      refine .failure leads ⟨tokens, later, rest ++ lower, reads, found, run_over lower runs, ?_⟩
      rw [reactAll_append, refuses]
  | overlong leads meets =>
      obtain ⟨tokens, later, rest, reads, found, runs, unmet⟩ := meets
      exact .overlong leads ⟨tokens, later, rest ++ lower, reads, found, run_over lower runs,
        List.append_ne_nil_of_left_ne_nil unmet lower⟩
  | @ok value finish entries matched =>
      obtain ⟨tokens, upper, reads, holds, runs, skips⟩ := matched
      -- What is left of the first demands may end here, so those below decide alone.
      have alike : ReactAlike (upper ++ lower) lower finish := by
        intro token taken
        rw [reactAll_append, skips token taken]
      have later := (second tokens value finish reads holds).of_alike alike
        (List.append_ne_nil_of_right_ne_nil upper)
      exact later.resume _ valid reads (run_over lower runs)

theorem Answers.bind (upper lower : List Demand) {rule : Rule α} {next : α → Rule β}
    {First : List Token → α → Prop} {Holds : List Token → β → Prop} (valid : cursor.Valid)
    (first : Answers upper First cursor (rule cursor))
    (second : ∀ tokens value finish, cursor.Reads tokens finish → First tokens value →
      Answers lower (fun others result => Holds (tokens ++ others) result) finish
        (next value finish)) :
    Answers (upper ++ lower) Holds cursor ((rule >>= next) cursor) :=
  Answers.andThen valid first second

theorem answers_pure {value : α} (holds : Holds [] value) :
    Answers [] Holds cursor ((pure value : Rule α) cursor) := by
  refine .ok ⟨[], [], .nil cursor, holds, rfl, ?_⟩
  intro token _
  rfl

/-- A rule that matches without reading leaves the answer to the next one. -/
theorem answers_still {rule : Rule β} {next : β → Rule α} {value : β}
    {entries : List RuleEntry} (valid : cursor.Valid)
    (still : rule cursor = ⟨.ok value, cursor, entries⟩)
    (answers : Answers demands Holds cursor (next value cursor)) :
    Answers demands Holds cursor ((rule >>= next) cursor) := by
  show Answers demands Holds cursor (Reply.andThen (rule cursor) next)
  rw [still]
  exact answers.resume _ valid (.nil cursor) rfl

/-! ## Tokens -/

/-- A rule that takes a token which is demanded leaves the rest to the next one. -/
theorem answers_step {rule : Rule β} {next : β → Rule α} {value : β} {token : Token}
    {later : List Demand} {entries : List RuleEntry} (valid : cursor.Valid)
    (taken : cursor.next.1 = .ok token)
    (steps : rule cursor = ⟨.ok value, cursor.next.2, entries⟩)
    (reaction : reactAll demands token.kind = .taken later)
    (answers : Answers later (fun others result => Holds (token :: others) result) cursor.next.2
      (next value cursor.next.2)) :
    Answers demands Holds cursor ((rule >>= next) cursor) := by
  show Answers demands Holds cursor (Reply.andThen (rule cursor) next)
  rw [steps]
  exact answers.resume _ valid (.one taken) (run_cons.mpr ⟨later, reaction, rfl⟩)

theorem takeToken_ok {token : Token} (taken : cursor.next.1 = .ok token) :
    Rule.takeToken cursor = ⟨.ok token, cursor.next.2, []⟩ := by
  unfold Rule.takeToken
  rw [taken]
  rfl

theorem takeToken_overlong {numeral : OverlongNumeral} (taken : cursor.next.1 = .error numeral) :
    Rule.takeToken cursor = ⟨.error (.overlong numeral), cursor.next.2, []⟩ := by
  unfold Rule.takeToken
  rw [taken]
  rfl

theorem takeToken_bind {next : Token → Rule α} {token : Token}
    (taken : cursor.next.1 = .ok token) :
    (Rule.takeToken >>= next) cursor = next token cursor.next.2 := by
  have takes := takeToken_ok taken
  rw [bind_ok (congrArg Reply.outcome takes), takes]
  rfl

theorem takeToken_bind_overlong {next : Token → Rule α} {numeral : OverlongNumeral}
    (taken : cursor.next.1 = .error numeral) :
    (Rule.takeToken >>= next) cursor = ⟨.error (.overlong numeral), cursor.next.2, []⟩ := by
  have overlong := takeToken_overlong taken
  rw [bind_error (congrArg Reply.outcome overlong), overlong]

/-- Taking a token leaves the decision to what is demanded first. -/
theorem answers_takeToken {next : Token → Rule α} (valid : cursor.Valid) (unmet : demands ≠ [])
    (decides : ∀ token, cursor.next.1 = .ok token →
      (∃ later, reactAll demands token.kind = .taken later ∧
        Answers later (fun others result => Holds (token :: others) result) cursor.next.2
          (next token cursor.next.2)) ∨
      (∃ wanted, reactAll demands token.kind = .refused wanted ∧
        next token = Rule.fail wanted token)) :
    Answers demands Holds cursor ((Rule.takeToken >>= next) cursor) := by
  have leads := Cursor.next_leads valid
  cases taken : cursor.next.1 with
  | error numeral =>
      rw [takeToken_bind_overlong taken]
      exact .overlong leads ⟨[], cursor, demands, .nil cursor, taken, rfl, unmet⟩
  | ok token =>
      rcases decides token taken with ⟨later, reaction, answers⟩ | ⟨wanted, reaction, fails⟩
      · exact answers_step valid taken (takeToken_ok taken) reaction answers
      · rw [takeToken_bind taken, fails]
        exact .failure leads ⟨[], cursor, demands, .nil cursor, taken, rfl, reaction⟩

/-- A rule that is restored answers the same. -/
theorem answers_restoring {rule : Rule α} (valid : cursor.Valid)
    (answers : Answers demands Holds cursor (rule cursor)) :
    Answers demands Holds cursor (Rule.restoring rule cursor) := by
  unfold Rule.restoring Rule.returning
  simp only
  generalize rule cursor = reply at answers
  cases answers with
  | ok matched => exact .ok matched
  | failure leads refused =>
      simp only
      rw [leads.moveTo_start]
      exact .failure (.refl valid) refused
  | overlong leads meets => exact .overlong leads meets

/-- A rule and a guarded one after it answer as the two in sequence do. -/
theorem answers_followedBy {rule : Rule β} {next : β → Rule α} (valid : cursor.Valid)
    (answers : Answers demands Holds cursor ((rule >>= next) cursor)) :
    Answers demands Holds cursor (rule.followedBy next cursor) := by
  cases outcome : (rule cursor).outcome with
  | error fault =>
      rw [bind_error outcome] at answers
      rw [followedBy_error outcome]
      exact answers
  | ok value =>
      rw [bind_ok outcome] at answers
      rw [followedBy_ok outcome]
      unfold Rule.returning
      generalize next value (rule cursor).cursor = later at answers
      obtain ⟨outcome', stopped, entries⟩ := later
      rcases outcome' with (failure | numeral) | result
      · have leads : cursor.Leads stopped := answers.leads valid
        simp only
        rw [leads.moveTo_start]
        exact .failure (.refl valid) (answers.refused rfl)
      · exact answers
      · exact answers

/-- Everything that comes of demanding a token of one kind. -/
theorem consume_eq (kind : Kind) (valid : cursor.Valid) :
    Rule.consume kind cursor =
      match cursor.next.1 with
      | .error numeral => ⟨.error (.overlong numeral), cursor.next.2, []⟩
      | .ok found =>
        if found.kind = kind then ⟨.ok (), cursor.next.2, []⟩
        else ⟨.error (.failure ⟨.token kind, found⟩), cursor, []⟩ := by
  have back := (Cursor.next_leads valid).moveTo_start
  unfold Rule.consume Rule.restoring Rule.returning
  cases taken : cursor.next.1 with
  | error numeral => simp only [takeToken_bind_overlong taken]
  | ok found =>
      by_cases same : found.kind = kind
      · simp only [takeToken_bind taken, if_pos same]
        rfl
      · simp only [takeToken_bind taken, if_neg same, Rule.fail, back]

theorem answers_consume (kind : Kind) (valid : cursor.Valid) :
    Answers [.token kind] (fun tokens _ => ∃ token, tokens = [token] ∧ token.kind = kind) cursor
      (Rule.consume kind cursor) := by
  apply answers_restoring valid
  apply answers_takeToken valid (by simp)
  intro token taken
  by_cases same : token.kind = kind
  · refine .inl ⟨[], by simp [same], ?_⟩
    rw [if_pos same]
    exact answers_pure ⟨token, rfl, same⟩
  · refine .inr ⟨.token kind, by simp [same], ?_⟩
    rw [if_neg same]

/-! ## Choices -/

/-- Demands that go the way of others wherever these do not refuse the next token. -/
def Covers (demands way : List Demand) : Prop :=
  ∀ kind, (∀ wanted, reactAll way kind ≠ .refused wanted) →
    reactAll demands kind = reactAll way kind

theorem Covers.alike_of_matched {value : α} {finish : Cursor} (covers : Covers demands way)
    (matched : Matched way Holds cursor value finish) : ReactAlike demands way cursor := by
  intro token next
  apply covers token.kind
  intro wanted refuses
  obtain ⟨tokens, rest, reads, -, runs, skips⟩ := matched
  cases reads with
  | nil =>
      cases runs
      rw [skips token next] at refuses
      cases refuses
  | cons taken _ =>
      cases taken.symm.trans next
      obtain ⟨later, reaction, -⟩ := run_cons.mp runs
      rw [reaction] at refuses
      cases refuses

theorem Covers.alike_of_meetsOverlong {numeral : OverlongNumeral} (covers : Covers demands way)
    (meets : MeetsOverlong way cursor numeral) : ReactAlike demands way cursor := by
  intro token next
  apply covers token.kind
  intro wanted refuses
  obtain ⟨tokens, later, rest, reads, found, runs, -⟩ := meets
  cases reads with
  | nil => cases found.symm.trans next
  | cons taken _ =>
      cases taken.symm.trans next
      obtain ⟨middle, reaction, -⟩ := run_cons.mp runs
      rw [reaction] at refuses
      cases refuses

/-- Demands refuse the first token, or take it and refuse a later one. -/
theorem Refused.first_or_later {failure : Failure} (valid : cursor.Valid)
    (passes : ∀ kind later, reactAll way kind = .taken later → kind.isFinal = false)
    (refused : Refused way cursor failure) :
    (cursor.next.1 = .ok failure.found ∧
      reactAll way failure.found.kind = .refused failure.wanted) ∨
    ∃ token later, cursor.next.1 = .ok token ∧ reactAll way token.kind = .taken later ∧
      later ≠ [] ∧ token.start < failure.position := by
  obtain ⟨tokens, last, rest, reads, found, runs, refuses⟩ := refused
  cases reads with
  | nil =>
      cases runs
      exact .inl ⟨found, refuses⟩
  | @cons _ _ token others taken reads =>
      obtain ⟨later, reaction, after⟩ := run_cons.mp runs
      refine .inr ⟨token, later, taken, reaction, ?_, ?_⟩
      · rintro rfl
        cases kinds : others.map Token.kind with
        | nil =>
            rw [kinds] at after
            cases after
            cases refuses
        | cons kind kinds' =>
            rw [kinds] at after
            cases after
      · have passed := Cursor.next_passes taken (passes _ _ reaction)
        have onward := reads.leads (Cursor.next_leads valid).valid
        have start := Cursor.next_start onward.valid found
        have forward := onward.forward
        unfold Failure.position
        omega

/-- Demands whose first token was taken on a way refuse what the way refuses. -/
theorem Covers.refused {failure : Failure} {token : Token} {later : List Demand}
    (covers : Covers demands way) (taken : cursor.next.1 = .ok token)
    (reaction : reactAll way token.kind = .taken later) (refused : Refused way cursor failure) :
    Refused demands cursor failure := by
  apply refused.of_alike
  intro next found
  cases taken.symm.trans found
  apply covers
  simp [reaction]

/-- Demands of a choice: each way is taken on its own tokens, and the failures of both
ways are merged into the failure of the choice. -/
structure Choice (merge : Failure → Failure → Failure) (demands way way' : List Demand) :
    Prop where
  unmet : demands ≠ []
  covers : Covers demands way
  covers' : Covers demands way'
  passes : ∀ kind later, reactAll way kind = .taken later → kind.isFinal = false
  passes' : ∀ kind later, reactAll way' kind = .taken later → kind.isFinal = false
  apart : ∀ kind later later', reactAll way kind = .taken later →
    reactAll way' kind ≠ .taken later'
  both : ∀ found wanted wanted', reactAll way found.kind = .refused wanted →
    reactAll way' found.kind = .refused wanted' →
    ∃ merged, merge ⟨wanted, found⟩ ⟨wanted', found⟩ = ⟨merged, found⟩ ∧
      reactAll demands found.kind = .refused merged
  second : ∀ first second : Failure, first.position < second.position →
    merge first second = second
  first : ∀ kind later, reactAll way kind = .taken later → later ≠ [] →
    ∀ first second : Failure, second.position < first.position → merge first second = first

/-- The merged failure is the one that the demands of the choice have. -/
theorem Choice.refused {merge : Failure → Failure → Failure} {way' : List Demand}
    {failure failure' : Failure} (valid : cursor.Valid) (choice : Choice merge demands way way')
    (refused : Refused way cursor failure) (refused' : Refused way' cursor failure') :
    Refused demands cursor (merge failure failure') := by
  rcases refused.first_or_later valid choice.passes with
    ⟨found, refuses⟩ | ⟨token, later, taken, reaction, unfinished, onward⟩
  · rcases refused'.first_or_later valid choice.passes' with
      ⟨found', refuses'⟩ | ⟨token', later', taken', reaction', -, onward'⟩
    · obtain ⟨wanted, token⟩ := failure
      obtain ⟨wanted', token'⟩ := failure'
      cases found.symm.trans found'
      -- Both ways stop at the first token.
      obtain ⟨merged, same, refusesAll⟩ := choice.both token wanted wanted' refuses refuses'
      rw [same]
      exact ⟨[], cursor, demands, .nil cursor, found, rfl, refusesAll⟩
    · have further : failure.position < failure'.position := by
        cases found.symm.trans taken'
        exact onward'
      rw [choice.second _ _ further]
      exact choice.covers'.refused taken' reaction' refused'
  · rcases refused'.first_or_later valid choice.passes' with
      ⟨found', refuses'⟩ | ⟨token', later', taken', reaction', -, -⟩
    · have further : failure'.position < failure.position := by
        cases found'.symm.trans taken
        exact onward
      rw [choice.first _ _ reaction unfinished _ _ further]
      exact choice.covers.refused taken reaction refused
    · -- No token is taken on both ways.
      cases taken.symm.trans taken'
      exact absurd reaction' (choice.apart _ _ _ reaction)

/-- If the first way fails, the second is tried from the same place. -/
theorem answers_either {merge : Failure → Failure → Failure} {way' : List Demand}
    {first second : Rule α} (valid : cursor.Valid) (choice : Choice merge demands way way')
    (firstAnswers : Answers way Holds cursor (first cursor))
    (secondAnswers : Answers way' Holds cursor (second cursor)) :
    Answers demands Holds cursor (Rule.either merge first second cursor) := by
  unfold Rule.either
  simp only
  generalize first cursor = attempt at firstAnswers
  cases firstAnswers with
  | ok matched => exact .ok (matched.of_alike (choice.covers.alike_of_matched matched))
  | overlong leads meets =>
      have alike := choice.covers.alike_of_meetsOverlong meets
      exact .overlong leads (meets.of_alike alike fun _ => choice.unmet)
  | failure leads refused =>
      simp only
      rw [leads.moveTo_start]
      generalize second cursor = retry at secondAnswers
      cases secondAnswers with
      | ok matched => exact .ok (matched.of_alike (choice.covers'.alike_of_matched matched))
      | overlong leads meets =>
          have alike := choice.covers'.alike_of_meetsOverlong meets
          exact .overlong leads (meets.of_alike alike fun _ => choice.unmet)
      | failure leads' refused' =>
          simp only
          rw [leads'.moveTo_start]
          exact .failure (.refl valid) (choice.refused valid refused refused')

/-! ## Chains -/

/-- Everything that comes of looking for a token of one kind. -/
theorem accepts_eq (kind : Kind) (valid : cursor.Valid) :
    Rule.accepts kind cursor =
      match cursor.next.1 with
      | .error numeral => ⟨.error (.overlong numeral), cursor.next.2, []⟩
      | .ok found =>
        if found.kind = kind then ⟨.ok true, cursor.next.2, []⟩ else ⟨.ok false, cursor, []⟩ := by
  unfold Rule.accepts
  rw [consume_eq kind valid]
  cases cursor.next.1 with
  | error numeral => rfl
  | ok found => by_cases same : found.kind = kind <;> simp [same]

/-- A chain that is not followed by its connective ends. -/
theorem answers_stop {operator : Connective} {value : α} (holds : Holds [] value)
    (stops : ∀ found, cursor.next.1 = .ok found → found.kind ≠ operator.kind) :
    Answers [.more operator] Holds cursor ((pure value : Rule α) cursor) := by
  refine .ok ⟨[], [.more operator], .nil cursor, holds, rfl, ?_⟩
  intro found taken
  simp [stops found taken]

/-- The operands after the first one extend the chain that was read. -/
theorem answers_links (operator : Connective) {operand : Rule Expr} (bound : Nat)
    {read : List Token} {folded : Expr} (valid : cursor.Valid)
    (enough : cursor.remaining.length ≤ bound)
    (operands : ∀ later, cursor.Leads later →
      Answers operator.operand.demands operator.operand.Derives later (operand later))
    (leading : (Phrase.chain operator).Derives read folded) :
    Answers [.more operator]
      (fun more result => (Phrase.chain operator).Derives (read ++ more) result) cursor
      (Rule.links operator.kind (.connect operator) operand bound folded cursor) := by
  -- What was read is a chain at every step, and the bound is what is left of the text.
  induction bound generalizing cursor read folded with
  | zero =>
      have nothing := List.length_eq_zero_iff.mp (Nat.le_zero.mp enough)
      apply answers_stop
      · rw [List.append_nil]
        exact leading
      · intro found taken
        cases taken.symm.trans (Cursor.next_of_remaining_nil nothing)
        show Kind.endOfText ≠ operator.kind
        cases operator <;> decide
  | succ bound inductionHypothesis =>
      have accepts := accepts_eq operator.kind valid
      unfold Rule.links
      cases taken : cursor.next.1 with
      | error numeral =>
          rw [taken] at accepts
          show Answers _ _ cursor (Reply.andThen (Rule.accepts operator.kind cursor) _)
          rw [accepts]
          exact .overlong (Cursor.next_leads valid)
            ⟨[], cursor, [.more operator], .nil cursor, taken, rfl, by simp⟩
      | ok found =>
          rw [taken] at accepts
          simp only at accepts
          by_cases same : found.kind = operator.kind
          · rw [if_pos same] at accepts
            have passed : found.kind.isFinal = false := by
              rw [same]
              exact operator.isFinal_kind
            have shorter := Cursor.next_remaining_lt valid taken passed
            have step := Cursor.next_leads valid
            have reaction : reactAll [.more operator] found.kind =
                .taken (operator.operand.demands ++ [.more operator]) := by
              simp [same]
            apply answers_step valid taken accepts reaction
            · rw [if_pos rfl]
              apply Answers.bind _ _ step.valid (operands _ step)
              intro tokens right finish reads derives
              have onward := reads.leads step.valid
              have still := onward.remaining_le
              have extended := leading.link same derives
              have rest := inductionHypothesis onward.valid (by omega)
                (fun later leads => operands later ((step.trans onward).trans leads)) extended
              apply rest.imp
              intro more result chain
              simpa using chain
          · rw [if_neg same] at accepts
            apply answers_still valid accepts
            rw [if_neg (by simp)]
            apply answers_stop
            · rw [List.append_nil]
              exact leading
            · intro other takenOther
              cases taken.symm.trans takenOther
              exact same

theorem answers_chain (operator : Connective) {operand : Rule Expr} (valid : cursor.Valid)
    (operands : ∀ later, cursor.Leads later →
      Answers operator.operand.demands operator.operand.Derives later (operand later)) :
    Answers (Phrase.chain operator).demands (Phrase.chain operator).Derives cursor
      (Rule.chain operator.kind (.connect operator) operand cursor) := by
  rw [Phrase.demands_chain]
  apply answers_followedBy valid
  apply Answers.bind _ _ valid (operands cursor (.refl valid))
  intro tokens first finish reads derives
  have onward := reads.leads valid
  have counted : Rule.charactersLeft finish = ⟨.ok finish.remaining.length, finish, []⟩ := rfl
  apply answers_still onward.valid counted
  exact answers_links operator _ onward.valid (Nat.le_refl _)
    (fun later leads => operands later (onward.trans leads)) (.single derives)

end SlotLogic
