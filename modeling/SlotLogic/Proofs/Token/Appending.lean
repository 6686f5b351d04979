import SlotLogic.Proofs.Token.Continuation
import SlotLogic.Proofs.Token.Spacing

/-!
Contract: the tokens of a text stay the same where a blank and any further text are put
behind it.

Owns: the scan of characters in front of a blank, and the reading of tokens on a text that
goes on behind a blank.

No literal and no numeral has a blank in it, so none runs on over the blank. Only the end of
the text is another token there. A token that is undefined is taken again and again, and it
stays undefined.

Does not own: what the tokens mean.
-/

set_option autoImplicit false

namespace SlotLogic

open SlotLogic.Text

/-! ## The scan -/

section

variable {known : List Char} {gap : Char}

/-- A word without blanks that begins a text ends in front of the first blank. -/
theorem prefix_before_blank {word more : List Char} (blank : isBlank gap = true)
    (solid : ∀ c ∈ word, isBlank c = false) (begins : word <+: known ++ gap :: more) :
    word <+: known := by
  rcases Nat.lt_or_ge known.length word.length with longer | within
  · have upToGap : known ++ [gap] <+: known ++ gap :: more := ⟨more, by simp⟩
    have inside : known ++ [gap] <+: word := by
      apply List.prefix_of_prefix_length_le upToGap begins
      rw [List.length_append, List.length_singleton]
      omega
    have apart := solid gap (inside.subset (by simp))
    rw [blank] at apart
    cases apart
  · exact List.prefix_of_prefix_length_le begins (List.prefix_append ..) within

theorem literal_before_blank {literal : Literal} {more : List Char} (blank : isBlank gap = true)
    (member : literal ∈ literals) (begins : literal.text <+: known ++ gap :: more) :
    literal.text <+: known := by
  have solid := List.any_eq_false.mp (literals_solid literal member)
  exact prefix_before_blank blank (fun c inside => Bool.eq_false_iff.mpr (solid c inside)) begins

/-- The digits at the front of a text end in front of the first blank. -/
theorem digits_before_blank (blank : isBlank gap = true) (more : List Char) :
    (known ++ gap :: more).takeWhile Char.isDigit = known.takeWhile Char.isDigit := by
  have other : gap.isDigit = false := by
    rw [Bool.eq_false_iff]
    intro digit
    rw [not_blank_of_digit digit] at blank
    cases blank
  rw [List.takeWhile_append]
  split
  · rename_i whole
    rw [takeWhile_of_head? (endsNumeral_cons more other), List.append_nil]
    exact ((List.takeWhile_prefix _).eq_of_length whole).symm
  · rfl

/-- What is scanned at the end of a text is scanned in front of a blank, whatever follows
it. -/
theorem scan_before_blank {lexeme : Lexeme} (blank : isBlank gap = true)
    (scanned : scan known = .ok lexeme) (present : lexeme.kind ≠ .endOfText) (more : List Char) :
    scan (known ++ gap :: more) = .ok lexeme := by
  cases known with
  | nil =>
      cases scanned
      exact absurd rfl present
  | cons c rest =>
      rcases scan_cons scanned with ⟨literal, found, rfl⟩ |
        ⟨none, ⟨leading, numeral⟩ | ⟨other, rfl⟩⟩
      · obtain ⟨member, begins, longest⟩ := find_literal_iff.mp found
        refine scan_of_find (find_literal_iff.mpr
          ⟨member, begins.trans (List.prefix_append ..), ?_⟩)
        exact fun other otherMember otherBegins =>
          longest other otherMember (literal_before_blank blank otherMember otherBegins)
      · rw [← digits_before_blank blank more] at numeral
        rw [List.cons_append] at numeral ⊢
        rw [scan_of_leading _ leading]
        exact numeral
      · have unmatched : ∀ literal ∈ literals, ¬literal.text <+: c :: rest ++ gap :: more :=
          fun literal member begins =>
            no_literal_iff.mp none literal member (literal_before_blank blank member begins)
        rw [List.cons_append] at unmatched ⊢
        rw [scan_of_cons, no_literal_iff.mpr unmatched]
        exact if_neg (by simp [other])

end

/-! ## Cursors -/

namespace Cursor

variable {cursor start finish : Cursor} {token : Token} {tokens : List Token} {gap : Char}

theorem remaining_continued_end (valid : cursor.Valid) (more : List Char) :
    (cursor.continued cursor.text.length more).remaining = cursor.remaining ++ more := by
  show (cursor.text.take cursor.text.length ++ more).drop cursor.position = _
  rw [List.take_length]
  exact List.drop_append_of_le_length valid

/-- In front of a token that is not the end of the text, the blanks end before the end. -/
theorem skipBlanks_before_end (taken : cursor.next.1 = .ok token)
    (present : token.kind ≠ .endOfText) : cursor.skipBlanks.position < cursor.text.length := by
  have left : cursor.skipBlanks.remaining.length =
      cursor.text.length - cursor.skipBlanks.position := cursor.skipBlanks.remaining_length
  have some : cursor.skipBlanks.remaining ≠ [] := by
    intro nothing
    have scanned := (scan_of_next taken).1
    rw [nothing] at scanned
    exact present (congrArg Lexeme.kind (Except.ok.inj scanned)).symm
  have positive := List.length_pos_iff.mpr some
  omega

/-- A token that is not the end of the text is taken as before where a blank follows the
text. -/
theorem next_before_blank (valid : cursor.Valid) (taken : cursor.next.1 = .ok token)
    (present : token.kind ≠ .endOfText) (blank : isBlank gap = true) (more : List Char) :
    (cursor.continued cursor.text.length (gap :: more)).next =
      (.ok token, cursor.next.2.continued cursor.text.length (gap :: more)) := by
  obtain ⟨scanned, start⟩ := scan_of_next taken
  have skipped := skipBlanks_continued (skipBlanks_before_end taken present) (Nat.le_refl _)
    (gap :: more)
  have remaining : (cursor.skipBlanks.continued cursor.text.length (gap :: more)).remaining =
      cursor.skipBlanks.remaining ++ gap :: more :=
    remaining_continued_end (skipBlanks_leads valid).valid (gap :: more)
  have scannedThere :
      scan (cursor.continued cursor.text.length (gap :: more)).skipBlanks.remaining =
        .ok ⟨token.kind, token.text⟩ := by
    rw [skipped, remaining]
    exact scan_before_blank blank scanned present more
  rw [next_of_scan scannedThere, next_of_scan scanned, skipped]
  obtain ⟨kind, text, place⟩ := token
  cases start
  split <;> rfl

namespace Reads

/-- Behind the end of the text nothing else is taken. -/
theorem before_end (reads : start.Reads tokens finish) (taken : finish.next.1 = .ok token)
    (present : token.kind ≠ .endOfText) : ∀ other ∈ tokens, other.kind ≠ .endOfText := by
  induction reads with
  | nil => simp
  | @cons start finish first tokens takenFirst rest inductionHypothesis =>
      refine List.forall_mem_cons.mpr ⟨?_, inductionHypothesis taken⟩
      intro ends
      have final : first.kind.isFinal = true := by
        rw [ends]
        rfl
      have again := next_again takenFirst final
      obtain ⟨-, rfl⟩ := rest.again again
      rw [again] at taken
      cases taken
      exact present ends

/-- Tokens before the end of the text are read as before where a blank follows the text. -/
theorem before_blank (reads : start.Reads tokens finish) (valid : start.Valid)
    (present : ∀ token ∈ tokens, token.kind ≠ .endOfText) (blank : isBlank gap = true)
    (more : List Char) :
    (start.continued start.text.length (gap :: more)).Reads tokens
      (finish.continued start.text.length (gap :: more)) := by
  induction reads with
  | nil => exact .nil _
  | cons taken rest inductionHypothesis =>
      obtain ⟨first, others⟩ := List.forall_mem_cons.mp present
      have leads := next_leads valid
      have later := inductionHypothesis leads.valid others
      rw [leads.text] at later
      exact .step (next_before_blank valid taken first blank more) later

end Reads

end Cursor

end SlotLogic
