import Mathlib.Data.List.TakeWhile
import SlotLogic.Proofs.Token.Scan
import SlotLogic.Token.Cursor

/-!
Contract: how a cursor moves while tokens are taken from it.

Owns: valid cursors, the order of two cursors on one text, the reading of a list
of tokens from one cursor to another, and the agreement of the token list of a
text with such a reading.

The facts about one token are stated once, as `next_leads`, `next_start` and
`next_passes`; all else follows by induction on the reading.

Does not own: rules.
-/

set_option autoImplicit false

namespace SlotLogic.Cursor

open SlotLogic.Text

/-- A cursor that stands in its text, or at its end. -/
def Valid (cursor : Cursor) : Prop :=
  cursor.position ≤ cursor.text.length

instance (cursor : Cursor) : Decidable cursor.Valid := by
  unfold Valid
  infer_instance

/-- The second cursor stands on the text of the first, at or after it. -/
structure Leads (start finish : Cursor) : Prop where
  text : finish.text = start.text
  forward : start.position ≤ finish.position
  valid : finish.Valid

theorem atStart_valid (text : List Char) : (atStart text).Valid :=
  Nat.zero_le _

theorem remaining_length (cursor : Cursor) :
    cursor.remaining.length = cursor.text.length - cursor.position := by
  simp [remaining]

namespace Leads

variable {start middle finish : Cursor}

theorem refl (valid : start.Valid) : start.Leads start :=
  ⟨rfl, Nat.le_refl _, valid⟩

theorem trans (first : start.Leads middle) (second : middle.Leads finish) :
    start.Leads finish :=
  ⟨second.text.trans first.text, Nat.le_trans first.forward second.forward, second.valid⟩

theorem valid_start (leads : start.Leads finish) : start.Valid := by
  have forward := leads.forward
  have valid := leads.valid
  unfold Valid at valid ⊢
  rw [leads.text] at valid
  omega

/-- What is left never grows. -/
theorem remaining_le (leads : start.Leads finish) :
    finish.remaining.length ≤ start.remaining.length := by
  have forward := leads.forward
  rw [remaining_length, remaining_length, leads.text]
  omega

/-- Where the cursor has moved on, less is left. -/
theorem remaining_lt (leads : start.Leads finish) (moved : start.position < finish.position) :
    finish.remaining.length < start.remaining.length := by
  have valid := leads.valid
  unfold Valid at valid
  rw [remaining_length, remaining_length, leads.text]
  rw [leads.text] at valid
  omega

/-- A move back to where a rule started arrives there, also from the end of the
text, where a move is ignored: nothing was read then. -/
theorem moveTo_start (leads : start.Leads finish) : finish.moveTo start.position = start := by
  obtain ⟨text, place⟩ := start
  obtain ⟨text', place'⟩ := finish
  obtain ⟨sameText, forward, valid⟩ := leads
  simp only at sameText forward
  subst sameText
  unfold Valid at valid
  simp only at valid
  by_cases inside : place < text'.length
  · simp [moveTo, inside]
  · have atEnd : place' = place := by omega
    simp [moveTo, inside, atEnd]

end Leads

/-! ## One token -/

theorem skipBlanks_leads {cursor : Cursor} (valid : cursor.Valid) :
    cursor.Leads cursor.skipBlanks := by
  have bound : (cursor.remaining.takeWhile isBlank).length ≤ cursor.remaining.length :=
    (List.takeWhile_prefix _).length_le
  rw [remaining_length] at bound
  unfold Valid at valid
  refine ⟨rfl, ?_, ?_⟩
  · simp only [skipBlanks]
    omega
  · simp only [skipBlanks, Valid]
    omega

theorem skipBlanks_remaining (cursor : Cursor) :
    cursor.skipBlanks.remaining = cursor.remaining.dropWhile isBlank := by
  have split : cursor.remaining.takeWhile isBlank ++ cursor.remaining.dropWhile isBlank =
      cursor.remaining := List.takeWhile_append_dropWhile
  have dropped : (cursor.remaining.takeWhile isBlank ++ cursor.remaining.dropWhile isBlank).drop
      (cursor.remaining.takeWhile isBlank).length = cursor.remaining.dropWhile isBlank :=
    List.drop_left
  rw [split] at dropped
  rw [← dropped]
  simp only [remaining, skipBlanks, List.drop_drop]

/-- The blanks at a cursor end where the first character stands that is none. -/
theorem skipBlanks_position (cursor : Cursor) :
    cursor.skipBlanks.position =
      cursor.position + cursor.remaining.findIdx fun c => !isBlank c := by
  show cursor.position + (cursor.remaining.takeWhile isBlank).length = _
  rw [List.takeWhile_eq_take_findIdx_not, List.length_take,
    Nat.min_eq_left List.findIdx_le_length]

theorem next_of_scan {cursor : Cursor} {lexeme : Lexeme}
    (scanned : scan cursor.skipBlanks.remaining = .ok lexeme) :
    cursor.next =
      (.ok ⟨lexeme.kind, lexeme.text, cursor.skipBlanks.position⟩,
        if lexeme.kind = .undefined then cursor.skipBlanks
        else ⟨cursor.text, cursor.skipBlanks.position + lexeme.text.length⟩) := by
  simp only [next, scanned, Token.stop]
  rfl

theorem next_of_overlong {cursor : Cursor} {numeral : OverlongNumeral}
    (scanned : scan cursor.skipBlanks.remaining = .error numeral) :
    cursor.next = (.error numeral, cursor.skipBlanks) := by
  simp only [next, scanned]

/-- A token comes from the scan after the blanks. -/
theorem scan_of_next {cursor : Cursor} {token : Token} (taken : cursor.next.1 = .ok token) :
    scan cursor.skipBlanks.remaining = .ok ⟨token.kind, token.text⟩ ∧
      token.start = cursor.skipBlanks.position := by
  cases scanned : scan cursor.skipBlanks.remaining with
  | error numeral =>
      rw [next_of_overlong scanned] at taken
      cases taken
  | ok lexeme =>
      rw [next_of_scan scanned] at taken
      cases taken
      exact ⟨rfl, rfl⟩

/-- Taking a token, or failing to, never moves the cursor back. -/
theorem next_leads {cursor : Cursor} (valid : cursor.Valid) : cursor.Leads cursor.next.2 := by
  have skipped := skipBlanks_leads valid
  cases scanned : scan cursor.skipBlanks.remaining with
  | error numeral =>
      rw [next_of_overlong scanned]
      exact skipped
  | ok lexeme =>
      rw [next_of_scan scanned]
      split
      · exact skipped
      · have bound := (scan_begins scanned).length_le
        have here := skipped.valid
        rw [remaining_length, skipped.text] at bound
        unfold Valid at here
        rw [skipped.text] at here
        refine skipped.trans ⟨rfl, Nat.le_add_right _ _, ?_⟩
        simp only [Valid]
        omega

theorem next_start {cursor : Cursor} {token : Token} (valid : cursor.Valid)
    (taken : cursor.next.1 = .ok token) : cursor.position ≤ token.start := by
  rw [(scan_of_next taken).2]
  exact (skipBlanks_leads valid).forward

/-- A token that is not final is passed, and it has a character. -/
theorem next_passes {cursor : Cursor} {token : Token} (taken : cursor.next.1 = .ok token)
    (passed : token.kind.isFinal = false) : token.start < cursor.next.2.position := by
  obtain ⟨scanned, start⟩ := scan_of_next taken
  have positive := List.length_pos_iff.mpr (scan_text_ne_nil scanned passed)
  have defined : token.kind ≠ .undefined := by
    intro undefined
    rw [undefined] at passed
    cases passed
  rw [next_of_scan scanned, if_neg defined]
  simp only at positive ⊢
  omega

/-- After a token that is not final less of the text is left. -/
theorem next_remaining_lt {cursor : Cursor} {token : Token} (valid : cursor.Valid)
    (taken : cursor.next.1 = .ok token) (passed : token.kind.isFinal = false) :
    cursor.next.2.remaining.length < cursor.remaining.length := by
  have start := next_start valid taken
  have passes := next_passes taken passed
  have leads := next_leads valid
  have later := leads.valid
  unfold Valid at later
  rw [remaining_length, remaining_length]
  rw [leads.text] at later ⊢
  omega

/-- With nothing left, the next token is the end of the text, and the cursor stays. -/
theorem next_at_end {cursor : Cursor} (nothing : cursor.remaining = []) :
    cursor.next = (.ok ⟨.endOfText, [], cursor.position⟩, cursor) := by
  have stays : cursor.skipBlanks = cursor := by
    simp [skipBlanks, nothing]
  have scanned : scan cursor.skipBlanks.remaining = .ok ⟨.endOfText, []⟩ := by
    rw [stays, nothing]
    rfl
  rw [next_of_scan scanned, stays]
  rfl

theorem next_of_remaining_nil {cursor : Cursor} (nothing : cursor.remaining = []) :
    cursor.next.1 = .ok ⟨.endOfText, [], cursor.position⟩ := by
  rw [next_at_end nothing]

/-- The end of the text comes next where only blanks are left. -/
theorem next_endOfText_iff {cursor : Cursor} :
    (∃ token, cursor.next.1 = .ok token ∧ token.kind = .endOfText) ↔
      ∀ c ∈ cursor.remaining, isBlank c = true := by
  rw [← List.dropWhile_eq_nil_iff, ← skipBlanks_remaining]
  constructor
  · rintro ⟨token, taken, ends⟩
    have scanned := (scan_of_next taken).1
    rw [ends] at scanned
    exact scan_endOfText scanned
  · intro nothing
    have scanned : scan cursor.skipBlanks.remaining = .ok ⟨.endOfText, []⟩ := by
      rw [nothing]
      rfl
    rw [next_of_scan scanned]
    exact ⟨_, rfl, rfl⟩

/-- The index of a numeral token lies in the range of a statement. -/
theorem next_index_range {cursor : Cursor} {token : Token} {index : Nat}
    (taken : cursor.next.1 = .ok token) (numeral : token.index? = some index) :
    1 ≤ index ∧ index ≤ greatestIndex := by
  unfold Token.index? at numeral
  split at numeral
  · rename_i number
    cases numeral
    exact scan_number_range (scan_of_next taken).1 number
  · cases numeral

/-! ## Lists of tokens -/

/-- Taking tokens one by one from a cursor yields a list and arrives at another
cursor. -/
inductive Reads : Cursor → List Token → Cursor → Prop where
  | nil (cursor : Cursor) : Reads cursor [] cursor
  | cons {start finish : Cursor} {token : Token} {tokens : List Token}
      (taken : start.next.1 = .ok token) (rest : Reads start.next.2 tokens finish) :
      Reads start (token :: tokens) finish

namespace Reads

variable {start middle finish : Cursor} {token : Token} {tokens others : List Token}

theorem one (taken : start.next.1 = .ok token) : start.Reads [token] start.next.2 :=
  .cons taken (.nil _)

theorem step (next : start.next = (.ok token, middle)) (rest : middle.Reads tokens finish) :
    start.Reads (token :: tokens) finish := by
  apply Reads.cons
  · rw [next]
  · rw [next]
    exact rest

theorem append (first : start.Reads tokens middle) (second : middle.Reads others finish) :
    start.Reads (tokens ++ others) finish := by
  induction first with
  | nil => exact second
  | cons taken _ inductionHypothesis => exact .cons taken (inductionHypothesis second)

theorem leads (reads : start.Reads tokens finish) (valid : start.Valid) :
    start.Leads finish := by
  induction reads with
  | nil => exact .refl valid
  | cons _ _ inductionHypothesis =>
      have first := next_leads valid
      exact first.trans (inductionHypothesis first.valid)

theorem one_remaining_lt (reads : start.Reads [token] finish) (valid : start.Valid)
    (passed : token.kind.isFinal = false) :
    finish.remaining.length < start.remaining.length := by
  obtain _ | ⟨taken, ⟨⟩⟩ := reads
  exact next_remaining_lt valid taken passed

/-- Tokens that are not final start before the cursor behind them. -/
theorem starts_before (reads : start.Reads tokens finish) (valid : start.Valid)
    (passes : ∀ token ∈ tokens, token.kind.isFinal = false) :
    ∀ token ∈ tokens, token.start < finish.position := by
  induction reads with
  | nil => simp
  | cons taken rest inductionHypothesis =>
      obtain ⟨passed, others⟩ := List.forall_mem_cons.mp passes
      have leads := next_leads valid
      have onward := (rest.leads leads.valid).forward
      have first := next_passes taken passed
      exact List.forall_mem_cons.mpr
        ⟨by omega, inductionHypothesis leads.valid others⟩

/-- From one cursor, one list of tokens arrives at one cursor. -/
theorem finish_unique {finish' : Cursor} (first : start.Reads tokens finish)
    (second : start.Reads tokens finish') : finish = finish' := by
  induction first with
  | nil =>
      cases second
      rfl
  | cons _ _ inductionHypothesis =>
      obtain _ | ⟨-, rest⟩ := second
      exact inductionHypothesis rest

/-- Of two readings from one cursor, one goes on where the other ends. -/
theorem extends_or_extended {finish' : Cursor} (first : start.Reads tokens finish)
    (second : start.Reads others finish') :
    (∃ more, others = tokens ++ more ∧ finish.Reads more finish') ∨
      ∃ more, tokens = others ++ more ∧ finish'.Reads more finish := by
  induction first generalizing others with
  | nil => exact .inl ⟨others, rfl, second⟩
  | cons taken rest inductionHypothesis =>
      cases second with
      | nil => exact .inr ⟨_, rfl, .cons taken rest⟩
      | cons taken' rest' =>
          cases taken.symm.trans taken'
          rcases inductionHypothesis rest' with ⟨more, rfl, later⟩ | ⟨more, rfl, later⟩
          · exact .inl ⟨more, rfl, later⟩
          · exact .inr ⟨more, rfl, later⟩

/-- No reading goes beyond a numeral that is too long. -/
theorem before_overlong {numeral : OverlongNumeral} (first : start.Reads tokens middle)
    (none : middle.next.1 = .error numeral) (second : start.Reads others finish) :
    ∃ more, tokens = others ++ more ∧ finish.Reads more middle := by
  rcases first.extends_or_extended second with ⟨more, rfl, onward⟩ | beyond
  · cases onward with
    | nil => exact ⟨[], by simp, .nil _⟩
    | cons taken _ => cases none.symm.trans taken
  · exact beyond

/-- Every token that is read was taken from some cursor. -/
theorem taken_of_mem (reads : start.Reads tokens finish) :
    ∀ token ∈ tokens, ∃ cursor : Cursor, cursor.next.1 = .ok token := by
  induction reads with
  | nil => simp
  | cons taken _ inductionHypothesis =>
      intro other member
      rcases List.mem_cons.mp member with rfl | later
      · exact ⟨_, taken⟩
      · exact inductionHypothesis other later

theorem split (reads : start.Reads (tokens ++ others) finish) :
    ∃ middle, start.Reads tokens middle ∧ middle.Reads others finish := by
  induction tokens generalizing start with
  | nil => exact ⟨start, .nil start, reads⟩
  | cons token rest inductionHypothesis =>
      obtain _ | ⟨taken, later⟩ := reads
      obtain ⟨middle, first, second⟩ := inductionHypothesis later
      exact ⟨middle, .cons taken first, second⟩

end Reads

/-! ## The token list of a text -/

theorem tokensWithin_succ (start : Cursor) (bound : Nat) :
    start.tokensWithin (bound + 1) =
      match start.next.1 with
      | .error numeral => .error numeral
      | .ok token =>
        if token.kind.isFinal then .ok [token]
        else (start.next.2.tokensWithin bound).map fun tokens => token :: tokens := by
  rcases next : start.next with ⟨outcome, later⟩
  rw [tokensWithin, next]
  cases outcome with
  | error numeral => rfl
  | ok token => rfl

/-- A token list is read from the cursor, and its last token alone is final. -/
theorem split_of_tokensWithin {bound : Nat} {start : Cursor} {tokens : List Token}
    (valid : start.Valid) (enough : start.remaining.length ≤ bound)
    (listed : start.tokensWithin bound = .ok tokens) :
    ∃ earlier final finish, tokens = earlier ++ [final] ∧ start.Reads tokens finish ∧
      (∀ token ∈ earlier, token.kind.isFinal = false) ∧ final.kind.isFinal = true := by
  induction bound generalizing start tokens with
  | zero =>
      have nothing := List.length_eq_zero_iff.mp (Nat.le_zero.mp enough)
      have taken := next_of_remaining_nil nothing
      rw [tokensWithin, taken] at listed
      cases listed
      exact ⟨[], _, _, rfl, .one taken, by simp, rfl⟩
  | succ bound inductionHypothesis =>
      rw [tokensWithin_succ] at listed
      cases taken : start.next.1 with
      | error numeral =>
          rw [taken] at listed
          cases listed
      | ok token =>
          rw [taken] at listed
          simp only at listed
          split at listed
          · rename_i final
            cases listed
            exact ⟨[], token, _, rfl, .one taken, by simp, final⟩
          · rename_i passed
            have notFinal : token.kind.isFinal = false := by simpa using passed
            have shorter := next_remaining_lt valid taken notFinal
            cases rest : start.next.2.tokensWithin bound with
            | error numeral =>
                rw [rest] at listed
                cases listed
            | ok later =>
                rw [rest] at listed
                cases listed
                obtain ⟨earlier, final, finish, rfl, reads, others, ends⟩ :=
                  inductionHypothesis (next_leads valid).valid (by omega) rest
                exact ⟨token :: earlier, final, finish, rfl, .cons taken reads,
                  List.forall_mem_cons.mpr ⟨notFinal, others⟩, ends⟩

theorem reads_of_tokensWithin {bound : Nat} {start : Cursor} {tokens : List Token}
    (valid : start.Valid) (enough : start.remaining.length ≤ bound)
    (listed : start.tokensWithin bound = .ok tokens) :
    ∃ finish, start.Reads tokens finish := by
  obtain ⟨earlier, final, finish, -, reads, -⟩ := split_of_tokensWithin valid enough listed
  exact ⟨finish, reads⟩

/-- Tokens that are read, of which the last alone is final, are the token list. -/
theorem tokensWithin_of_reads {bound : Nat} {start finish : Cursor} {earlier : List Token}
    {final : Token} (valid : start.Valid) (enough : start.remaining.length ≤ bound)
    (reads : start.Reads (earlier ++ [final]) finish)
    (passed : ∀ token ∈ earlier, token.kind.isFinal = false)
    (ends : final.kind.isFinal = true) :
    start.tokensWithin bound = .ok (earlier ++ [final]) := by
  induction bound generalizing start earlier with
  | zero =>
      have nothing := List.length_eq_zero_iff.mp (Nat.le_zero.mp enough)
      have atEnd := next_of_remaining_nil nothing
      cases earlier with
      | nil =>
          obtain _ | ⟨taken, -⟩ := reads
          rw [tokensWithin, taken]
          rfl
      | cons token rest =>
          obtain _ | ⟨taken, -⟩ := reads
          cases atEnd.symm.trans taken
          have passed := passed _ (List.mem_cons_self ..)
          cases passed
  | succ bound inductionHypothesis =>
      cases earlier with
      | nil =>
          obtain _ | ⟨taken, -⟩ := reads
          rw [tokensWithin_succ, taken]
          exact if_pos ends
      | cons token rest =>
          obtain _ | ⟨taken, later⟩ := reads
          have notFinal := passed token (List.mem_cons_self ..)
          have shorter := next_remaining_lt valid taken notFinal
          have rest := inductionHypothesis (next_leads valid).valid (by omega) later
            fun other member => passed other (List.mem_cons_of_mem _ member)
          rw [tokensWithin_succ, taken]
          simp only
          rw [if_neg (by simp [notFinal]), rest]
          rfl

end SlotLogic.Cursor
