import SlotLogic.Proofs.Evaluation.Expression
import SlotLogic.Proofs.Grammar.Completion
import SlotLogic.Proofs.Statement.Acceptance
import SlotLogic.Proofs.Token.Overlong

/-!
Contract: reading a text gives a tree, or a failure, or a numeral that is too long to be
converted; this last one comes out where the reader arrives at it.

Owns: the texts from which an over-long numeral comes out, for both readers and for plans
that are built from a text.

A reader arrives at a numeral behind tokens that begin a statement. The lenient one does
not arrive at a numeral behind the whole statement.

Does not own: trees and failures.
-/

set_option autoImplicit false

namespace SlotLogic

open SlotLogic.Text Demand

/-- The reader arrives at a numeral that is too long: it stands behind tokens that begin a
statement, and that are none yet where input may trail. -/
def ArrivesAtOverlong (lenient : Bool) (text : List Char) (numeral : OverlongNumeral) : Prop :=
  ∃ tokens later, (Cursor.atStart text).Reads tokens later ∧ later.FacesOverlong numeral ∧
    Phrase.statement.Begins (tokens.map Token.kind) ∧
    (lenient = true → ¬IsSentence (tokens.map Token.kind))

/-- An over-long numeral comes out of a text exactly if the reader arrives at it. -/
theorem parse_overlong_iff {lenient : Bool} {text : List Char} {numeral : OverlongNumeral} :
    parse lenient text = .error (.overlong numeral) ↔ ArrivesAtOverlong lenient text numeral := by
  cases lenient with
  | false =>
      refine ((answers_text text).overlong_iff fun _ _ => WholeStatement.runs).trans ?_
      constructor
      · rintro ⟨tokens, later, rest, reads, overlong, runs, unmet⟩
        exact ⟨tokens, later, reads, Cursor.next_overlong_iff.mp overlong,
          Phrase.begins_of_unmet runs unmet, by simp⟩
      · rintro ⟨tokens, later, reads, overlong, begins, -⟩
        obtain ⟨rest, runs, unmet⟩ := Phrase.unmet_of_begins begins
        exact ⟨tokens, later, rest, reads, Cursor.next_overlong_iff.mpr overlong, runs, unmet⟩
  | true =>
      refine ((answers_lenientText text).overlong_iff fun _ _ derives => derives.runs).trans ?_
      constructor
      · rintro ⟨tokens, later, rest, reads, overlong, unmet⟩
        obtain ⟨begins, other⟩ := Phrase.unmet_iff_begins.mp ⟨rest, unmet⟩
        exact ⟨tokens, later, reads, Cursor.next_overlong_iff.mp overlong, begins, fun _ => other⟩
      · rintro ⟨tokens, later, reads, overlong, begins, other⟩
        obtain ⟨rest, unmet⟩ := Phrase.unmet_iff_begins.mpr ⟨begins, other rfl⟩
        exact ⟨tokens, later, rest, reads, Cursor.next_overlong_iff.mpr overlong, unmet⟩

variable {lenient : Bool} {text : List Char}

/-- Where the reader does not arrive at such a numeral, a text gives a tree or a failure. -/
theorem parse_settles_iff :
    ((∃ expr, parse lenient text = .ok expr) ∨
        ∃ failure, parse lenient text = .error (.failure failure)) ↔
      ¬∃ numeral, ArrivesAtOverlong lenient text numeral := by
  constructor
  · rintro settled ⟨numeral, arrives⟩
    have overlong := parse_overlong_iff.mpr arrives
    rcases settled with ⟨expr, accepted⟩ | ⟨failure, fails⟩
    · cases accepted.symm.trans overlong
    · cases fails.symm.trans overlong
  · intro never
    cases outcome : parse lenient text with
    | ok expr => exact .inl ⟨expr, rfl⟩
    | error fault =>
        cases fault with
        | failure failure => exact .inr ⟨failure, rfl⟩
        | overlong numeral => exact absurd ⟨numeral, parse_overlong_iff.mp outcome⟩ never

/-! ## Plans -/

theorem build_text_outcome (lenient : Bool) (source : String) :
    (Plan.build lenient (.text source)).outcome =
      (((parse lenient source.toList).map Expr.toTree).mapError .unreadable).bind
        (Plan.compose (some source)) := by
  rw [Plan.build, Logged.build_outcome]
  rfl

/-- A text that is read has a plan of its tree. -/
theorem build_of_parse {source : String} {expr : Expr}
    (accepted : parse lenient source.toList = .ok expr) :
    ∃ plan, (Plan.build lenient (.text source)).outcome = .ok plan ∧ plan.root = expr.toTree := by
  obtain ⟨plan, composed, -⟩ := Plan.compose_of_proper (some source) expr.proper?_toTree
  rw [build_text_outcome, accepted]
  exact ⟨plan, composed, (Plan.root_of_compose composed).1⟩

theorem build_of_fault {source : String} {fault : ReadFault}
    (fails : parse lenient source.toList = .error fault) :
    (Plan.build lenient (.text source)).outcome = .error (.unreadable fault) := by
  rw [build_text_outcome, fails]
  rfl

theorem build_ok_iff :
    (∃ plan, (Plan.build lenient (.text (String.ofList text))).outcome = .ok plan) ↔
      ∃ expr, parse lenient text = .ok expr := by
  rw [← String.toList_ofList (l := text)]
  cases outcome : parse lenient (String.ofList text).toList with
  | ok expr =>
      obtain ⟨plan, planned, -⟩ := build_of_parse outcome
      rw [String.ofList_toList, planned]
      exact iff_of_true ⟨plan, rfl⟩ ⟨expr, rfl⟩
  | error fault => simp [build_of_fault outcome]

theorem build_unreadable_iff {fault : ReadFault} :
    (Plan.build lenient (.text (String.ofList text))).outcome = .error (.unreadable fault) ↔
      parse lenient text = .error fault := by
  rw [← String.toList_ofList (l := text)]
  cases outcome : parse lenient (String.ofList text).toList with
  | ok expr =>
      obtain ⟨plan, planned, -⟩ := build_of_parse outcome
      simp [planned]
  | error fault' => simp [build_of_fault outcome]

/-! ## A comparison with nines -/

/-- A statement that compares the first slot with a numeral of so many nines. -/
def ninesText (count : Nat) : List Char :=
  'i' :: 'f' :: '(' :: '1' :: '=' :: (List.replicate count '9' ++ [';', '1', ';', '1', ')'])

/-- The cursor in front of the nines. -/
def ninesCursor (count : Nat) : Cursor :=
  ⟨ninesText count, 5⟩

variable {count : Nat}

theorem facesNumeral_nines (positive : 0 < count) :
    (ninesCursor count).FacesNumeral (List.replicate count '9') [';', '1', ';', '1', ')'] where
  faces := Cursor.faces_of_remaining rfl
  leads := by
    obtain ⟨more, rfl⟩ := Nat.exists_eq_succ_of_ne_zero (Nat.ne_of_gt positive)
    exact ⟨'9', List.replicate more '9', rfl, by decide⟩
  digits := by
    intro c member
    rw [List.eq_of_mem_replicate member]
    rfl
  ends := endsNumeral_cons _ (by decide)

theorem skipBlanks_nines (positive : 0 < count) :
    (ninesCursor count).skipBlanks = ninesCursor count := by
  obtain ⟨more, rfl⟩ := Nat.exists_eq_succ_of_ne_zero (Nat.ne_of_gt positive)
  rfl

theorem nines_beyond (long : 3 ≤ count) :
    greatestIndex < numeralValue (List.replicate count '9') := by
  induction count, long using Nat.le_induction with
  | base => decide
  | succ count _ inductionHypothesis =>
      rw [List.replicate_succ', numeralValue_concat]
      omega

/-- The nines stand behind the first sign of the comparison. -/
theorem reads_before_nines (count : Nat) :
    (Cursor.atStart (ninesText count)).Reads
      [⟨.ifWord, ['i', 'f'], 0⟩, ⟨.openParen, ['('], 2⟩, ⟨.number, ['1'], 3⟩, ⟨.eq, ['='], 4⟩]
      (ninesCursor count) := by
  have word : (Cursor.atStart (ninesText count)).next =
      (.ok ⟨.ifWord, ['i', 'f'], 0⟩, ⟨ninesText count, 2⟩) := rfl
  have opening : (⟨ninesText count, 2⟩ : Cursor).next =
      (.ok ⟨.openParen, ['('], 2⟩, ⟨ninesText count, 3⟩) := rfl
  have slot : (⟨ninesText count, 3⟩ : Cursor).next =
      (.ok ⟨.number, ['1'], 3⟩, ⟨ninesText count, 4⟩) := rfl
  have sign : (⟨ninesText count, 4⟩ : Cursor).next =
      (.ok ⟨.eq, ['='], 4⟩, ninesCursor count) := rfl
  exact .step word (.step opening (.step slot (.step sign (.nil _))))

theorem facesOverlong_nines (long : digitLimit < count) :
    (ninesCursor count).FacesOverlong ⟨count⟩ := by
  refine ⟨_, _, facesNumeral_nines (by omega), ?_, ?_⟩
  · rw [List.length_replicate]
    exact long
  · rw [List.length_replicate]

/-- Too many nines come out of the text in both readers. -/
theorem parse_nines (lenient : Bool) (long : digitLimit < count) :
    parse lenient (ninesText count) = .error (.overlong ⟨count⟩) := by
  obtain ⟨begins, other⟩ := Phrase.unmet_iff_begins.mp
    ⟨_, (rfl : run Phrase.statement.demands [.ifWord, .openParen, .number, .eq] = _), by decide⟩
  exact parse_overlong_iff.mpr ⟨_, _, reads_before_nines count, facesOverlong_nines long, begins,
    fun _ => other⟩

/-! ## What comes out -/

/-- A numeral that names no slot is undefined and stays ahead of the cursor, unless it is
too long. In front of a numeral that is too long, and nowhere else, there is no token. A
text gives a tree or a failure, and the same text a plan or this failure, exactly if the
reader does not arrive at such a numeral. -/
theorem only_overlong_numerals_escape (cursor : Cursor) (lenient : Bool) (text : List Char) :
    (∀ digits rest, cursor.FacesNumeral digits rest → greatestIndex < numeralValue digits →
      cursor.next =
        (if digitLimit < digits.length then .error ⟨digits.length⟩
          else .ok ⟨.undefined, digits, cursor.skipBlanks.position⟩, cursor.skipBlanks)) ∧
    ((∃ token, cursor.next.1 = .ok token) ↔ ¬∃ numeral, cursor.FacesOverlong numeral) ∧
    (((∃ expr, parse lenient text = .ok expr) ∨
        ∃ failure, parse lenient text = .error (.failure failure)) ↔
      ¬∃ numeral, ArrivesAtOverlong lenient text numeral) ∧
    (((∃ plan, (Plan.build lenient (.text (String.ofList text))).outcome = .ok plan) ∨
        ∃ failure, (Plan.build lenient (.text (String.ofList text))).outcome =
          .error (.unreadable (.failure failure))) ↔
      ¬∃ numeral, ArrivesAtOverlong lenient text numeral) := by
  refine ⟨?_, Cursor.next_token_iff, parse_settles_iff, ?_⟩
  · intro digits rest numeral beyond
    rw [numeral.next, if_neg (Nat.not_le.mpr beyond)]
    split <;> rfl
  · simp only [build_ok_iff, build_unreadable_iff]
    exact parse_settles_iff

/-- No token, no failure and no plan comes from 4301 nines, though their value is beyond
every index. -/
theorem overlong_nines_escape :
    greatestIndex < numeralValue (List.replicate 4301 '9') ∧
    (ninesCursor 4301).next.1 = .error ⟨4301⟩ ∧
    parse false (ninesText 4301) = .error (.overlong ⟨4301⟩) ∧
    parse true (ninesText 4301) = .error (.overlong ⟨4301⟩) ∧
    (Plan.build false (.text (String.ofList (ninesText 4301)))).outcome =
      .error (.unreadable (.overlong ⟨4301⟩)) := by
  have long : digitLimit < 4301 := by decide
  exact ⟨nines_beyond (by decide), Cursor.next_overlong_iff.mpr (facesOverlong_nines long),
    parse_nines false long, parse_nines true long,
    build_unreadable_iff.mpr (parse_nines false long)⟩

/-- The digit limit parts 4300 nines, which are undefined, from 4301. -/
theorem nines_part_at_limit :
    (ninesCursor 4300).next =
        (.ok ⟨.undefined, List.replicate 4300 '9', 5⟩, ninesCursor 4300) ∧
      (ninesCursor 4301).next = (.error ⟨4301⟩, ninesCursor 4301) ∧
      ∃ numeral, ArrivesAtOverlong true (ninesText 4301) numeral := by
  obtain ⟨within, -⟩ := only_overlong_numerals_escape (ninesCursor 4300) false (ninesText 4300)
  obtain ⟨beyond, -, settles, -⟩ :=
    only_overlong_numerals_escape (ninesCursor 4301) true (ninesText 4301)
  have atLimit := within _ _ (facesNumeral_nines (by decide)) (nines_beyond (by decide))
  have pastLimit := beyond _ _ (facesNumeral_nines (by decide)) (nines_beyond (by decide))
  rw [List.length_replicate, if_neg (by decide), skipBlanks_nines (by decide)] at atLimit
  rw [List.length_replicate, if_pos (by decide), skipBlanks_nines (by decide)] at pastLimit
  refine ⟨atLimit, pastLimit, not_not.mp (mt settles.mpr ?_)⟩
  rw [parse_nines true (by decide)]
  simp

end SlotLogic
