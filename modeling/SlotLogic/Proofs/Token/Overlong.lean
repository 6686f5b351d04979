import SlotLogic.Proofs.Token.Spelling

/-!
Contract: what a numeral of any length does at a cursor.

Owns: numerals that a cursor faces, the step of a cursor at one, and the numerals for
which there is no token.

A numeral is all of the digits that stand together. It names a slot, or is undefined and
stays ahead of the cursor, as long as it is converted at all. Past the digit limit there
is no token, and this is the only reason why there would be none.

Does not own: what a reader of statements makes of it.
-/

set_option autoImplicit false

namespace SlotLogic

open SlotLogic.Text

/-- What a scan without a lexeme has found: a maximal numeral that is too long. -/
theorem scan_overlong {text : List Char} {numeral : OverlongNumeral}
    (scanned : scan text = .error numeral) :
    ∃ c rest, text = c :: rest ∧ isLeadingDigit c = true ∧
      digitLimit < (text.takeWhile Char.isDigit).length ∧
      numeral = ⟨(text.takeWhile Char.isDigit).length⟩ := by
  cases text with
  | nil => cases scanned
  | cons c rest =>
      rw [scan_of_cons] at scanned
      split at scanned
      · cases scanned
      · split at scanned
        · rename_i leading
          unfold numeralLexeme at scanned
          split at scanned
          · rename_i overlong
            cases scanned
            exact ⟨c, rest, rfl, leading, overlong, rfl⟩
          · split at scanned <;> cases scanned
        · cases scanned

namespace Cursor

variable {cursor : Cursor} {digits rest : List Char}

/-- Behind blanks the cursor faces a whole numeral: digits of which the first is not zero,
and no digit behind them. -/
structure FacesNumeral (cursor : Cursor) (digits rest : List Char) : Prop where
  faces : cursor.Faces (digits ++ rest)
  leads : ∃ c more, digits = c :: more ∧ isLeadingDigit c = true
  digits : ∀ c ∈ digits, c.isDigit = true
  ends : EndsNumeral rest

theorem FacesNumeral.scan (numeral : cursor.FacesNumeral digits rest) :
    scan cursor.skipBlanks.remaining = numeralLexeme digits := by
  obtain ⟨faces, ⟨c, more, rfl, leading⟩, digits, ends⟩ := numeral
  have here : cursor.skipBlanks.remaining = c :: (more ++ rest) :=
    faces.skipBlanks_remaining (not_blank_of_digit (isDigit_of_leading leading))
  rw [here, scan_of_leading _ leading, ← List.cons_append, ends.takeWhile digits]

/-- The step of a cursor at a numeral. -/
theorem FacesNumeral.next (numeral : cursor.FacesNumeral digits rest) :
    cursor.next =
      if digitLimit < digits.length then (.error ⟨digits.length⟩, cursor.skipBlanks)
      else if numeralValue digits ≤ greatestIndex then
        (.ok ⟨.number, digits, cursor.skipBlanks.position⟩,
          ⟨cursor.text, cursor.skipBlanks.position + digits.length⟩)
      else (.ok ⟨.undefined, digits, cursor.skipBlanks.position⟩, cursor.skipBlanks) := by
  have scanned := numeral.scan
  by_cases long : digitLimit < digits.length
  · rw [numeralLexeme, if_pos long] at scanned
    rw [next_of_overlong scanned, if_pos long]
  · rw [numeralLexeme, if_neg long] at scanned
    by_cases within : numeralValue digits ≤ greatestIndex
    · rw [if_pos within] at scanned
      rw [next_of_scan scanned, if_neg long, if_pos within]
      rfl
    · rw [if_neg within] at scanned
      rw [next_of_scan scanned, if_neg long, if_neg within]
      rfl

/-- Where the blanks end at a digit other than zero, the digits there are a numeral. -/
theorem facesNumeral_of_leading {c : Char} {more : List Char}
    (here : cursor.skipBlanks.remaining = c :: more) (leading : isLeadingDigit c = true) :
    cursor.FacesNumeral ((c :: more).takeWhile Char.isDigit)
      ((c :: more).dropWhile Char.isDigit) where
  faces := by
    rw [List.takeWhile_append_dropWhile, ← here]
    exact cursor.faces_skipBlanks
  leads := by
    rw [List.takeWhile_cons_of_pos (isDigit_of_leading leading)]
    exact ⟨c, _, rfl, leading⟩
  digits := fun _ member => List.mem_takeWhile_imp member
  ends := head?_dropWhile

/-- The cursor faces a numeral that is too long to be converted. -/
def FacesOverlong (cursor : Cursor) (numeral : OverlongNumeral) : Prop :=
  ∃ digits rest, cursor.FacesNumeral digits rest ∧ digitLimit < digits.length ∧
    numeral = ⟨digits.length⟩

/-- There is no token exactly in front of a numeral that is too long. -/
theorem next_overlong_iff {numeral : OverlongNumeral} :
    cursor.next.1 = .error numeral ↔ cursor.FacesOverlong numeral := by
  constructor
  · intro none
    cases scanned : scan cursor.skipBlanks.remaining with
    | ok lexeme =>
        rw [next_of_scan scanned] at none
        cases none
    | error overlong =>
        rw [next_of_overlong scanned] at none
        cases none
        obtain ⟨c, more, here, leading, long, length⟩ := scan_overlong scanned
        rw [here] at long length
        exact ⟨_, _, facesNumeral_of_leading here leading, long, length⟩
  · rintro ⟨digits, rest, faces, long, rfl⟩
    rw [faces.next, if_pos long]

/-- Anywhere else there is a token. -/
theorem next_token_iff :
    (∃ token, cursor.next.1 = .ok token) ↔ ¬∃ numeral, cursor.FacesOverlong numeral := by
  simp only [← next_overlong_iff]
  cases cursor.next.1 <;> simp

end Cursor

end SlotLogic
