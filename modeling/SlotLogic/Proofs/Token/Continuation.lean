import Mathlib.Data.List.Find
import SlotLogic.Proofs.Token.Writing

/-!
Contract: tokens that are read before a place stay the same, however the text goes on
from there.

Owns: the scan of known characters in front of two texts, and the reading of tokens on
a text that is continued in another way.

A token that ends before the place has at least one known character behind it, and no
scan looks further ahead than that. A closing parenthesis may end at the place itself,
because nothing runs on from it.

Does not own: what the tokens mean.
-/

set_option autoImplicit false

namespace SlotLogic

open SlotLogic.Text

/-! ## The scan -/

/-- A literal that begins another one is shorter by one character at most. -/
theorem literals_nested : ∀ literal ∈ literals, ∀ longer ∈ literals,
    literal.text <+: longer.text → longer.text.length ≤ literal.text.length + 1 := by
  decide

theorem literals_closing : ∀ literal ∈ literals,
    literal.kind = .closeParen → literal.text = [')'] := by
  decide

variable {known rest : List Char}

/-- Characters of a class that end among the known ones are found there again. -/
theorem takeWhile_known {class? : Char → Bool} (others : List Char)
    (inside : ((known ++ rest).takeWhile class?).length < known.length) :
    (known ++ others).takeWhile class? = (known ++ rest).takeWhile class? := by
  rw [List.takeWhile_append] at inside ⊢
  by_cases whole : (known.takeWhile class?).length = known.length
  · rw [if_pos whole, List.length_append] at inside
    omega
  · rw [if_neg whole, List.takeWhile_append, if_neg whole]

/-- A literal that ends among the known characters stays the first one that begins the
text: a longer one would reach beyond it by two characters. -/
theorem find_literal_known {literal : Literal} (others : List Char)
    (found : (literals.find? fun literal => literal.text.isPrefixOf (known ++ rest)) =
      some literal)
    (inside : literal.text.length < known.length) :
    (literals.find? fun literal => literal.text.isPrefixOf (known ++ others)) = some literal := by
  obtain ⟨member, begins⟩ := literal_of_find found
  have begun : ∀ more, known <+: known ++ more := List.prefix_append known
  have literalKnown : literal.text <+: known :=
    List.prefix_of_prefix_length_le begins (begun rest) (by omega)
  rw [← found]
  apply List.find?_congr
  intro other otherMember
  rw [Bool.eq_iff_iff, List.isPrefixOf_iff_prefix, List.isPrefixOf_iff_prefix]
  by_cases short : other.text.length ≤ known.length
  · have decided : ∀ more, other.text <+: known ++ more ↔ other.text <+: known := fun more =>
      ⟨fun begins => List.prefix_of_prefix_length_le begins (begun more) short,
        fun begins => begins.trans (begun more)⟩
    rw [decided, decided]
  · have refused : ∀ more, ¬other.text <+: known ++ more := by
      intro more begins
      have nested : literal.text <+: other.text :=
        List.prefix_of_prefix_length_le (literalKnown.trans (begun more)) begins (by omega)
      have longer := literals_nested literal member other otherMember nested
      omega
    exact iff_of_false (refused others) (refused rest)

/-- A lexeme that ends among the known characters is scanned whatever follows them, and
so is a closing parenthesis that is the last of them. -/
theorem scan_known {lexeme : Lexeme} (others : List Char)
    (scanned : scan (known ++ rest) = .ok lexeme) (passed : lexeme.kind.isFinal = false)
    (inside : lexeme.text.length < known.length ∨
      lexeme.text.length = known.length ∧ lexeme.kind = .closeParen) :
    scan (known ++ others) = .ok lexeme := by
  rcases scan_sources scanned with ⟨-, rfl⟩ | ⟨literal, found, rfl⟩ |
    ⟨c, more, text, leading, numeral⟩ | ⟨c, more, -, rfl⟩
  · cases passed
  · rcases inside with before | ⟨atEnd, closes⟩
    · exact scan_of_find (find_literal_known others found before)
    · obtain ⟨member, begins⟩ := literal_of_find found
      have same : literal.text = known :=
        (List.prefix_of_prefix_length_le begins (List.prefix_append known rest)
          (Nat.le_of_eq atEnd)).eq_of_length atEnd
      have kind : literal.kind = .closeParen := closes
      have text : literal.text = [')'] := literals_closing literal member kind
      rw [← same, text, kind]
      rfl
  · obtain ⟨digits, kind⟩ := numeralLexeme_ok numeral
    have before : lexeme.text.length < known.length := by
      refine inside.resolve_right fun ⟨_, closes⟩ => ?_
      rw [closes] at kind
      split at kind <;> cases kind
    rw [← text] at numeral digits
    rw [digits] at before
    cases known with
    | nil => cases before
    | cons head tail =>
        cases text
        rw [List.cons_append, scan_of_leading _ leading, ← List.cons_append,
          takeWhile_known others before]
        exact numeral
  · cases passed

/-! ## Cursors -/

namespace Cursor

variable {cursor start finish : Cursor} {place : Nat}

/-- The same place in a text that goes on differently from some place. -/
def continued (cursor : Cursor) (place : Nat) (more : List Char) : Cursor :=
  ⟨cursor.text.take place ++ more, cursor.position⟩

/-- What is left before the place is known. -/
theorem remaining_continued (before : cursor.position ≤ place) (within : place ≤ cursor.text.length)
    (more : List Char) :
    ∃ known rest, known.length = place - cursor.position ∧ cursor.remaining = known ++ rest ∧
      (cursor.continued place more).remaining = known ++ more := by
  have reaches : cursor.position ≤ (cursor.text.take place).length := by
    rw [List.length_take]
    omega
  refine ⟨(cursor.text.take place).drop cursor.position, cursor.text.drop place, ?_, ?_, ?_⟩
  · rw [List.length_drop, List.length_take]
    omega
  · rw [← List.drop_append_of_le_length reaches, List.take_append_drop]
    rfl
  · exact List.drop_append_of_le_length reaches

/-- Blanks that end before the place are passed as before. -/
theorem skipBlanks_continued (before : cursor.skipBlanks.position < place)
    (within : place ≤ cursor.text.length) (more : List Char) :
    (cursor.continued place more).skipBlanks = cursor.skipBlanks.continued place more := by
  have passed : cursor.skipBlanks.position =
      cursor.position + (cursor.remaining.takeWhile isBlank).length := rfl
  obtain ⟨known, rest, length, here, there⟩ := remaining_continued (by omega) within more
  have blanks : ((cursor.continued place more).remaining.takeWhile isBlank) =
      cursor.remaining.takeWhile isBlank := by
    rw [here] at passed ⊢
    rw [there]
    exact takeWhile_known more (by omega)
  unfold skipBlanks
  rw [blanks]
  rfl

/-- A token that ends before the place, or closes a parenthesis right before it, is
taken as before. -/
theorem next_continued {token : Token} (taken : cursor.next.1 = .ok token)
    (passed : token.kind.isFinal = false)
    (inside : cursor.next.2.position < place ∨
      cursor.next.2.position = place ∧ token.kind = .closeParen)
    (within : place ≤ cursor.text.length) (more : List Char) :
    (cursor.continued place more).next = (.ok token, cursor.next.2.continued place more) := by
  obtain ⟨scanned, start⟩ := scan_of_next taken
  have defined : token.kind ≠ .undefined := by
    intro undefined
    rw [undefined] at passed
    cases passed
  have stop : cursor.next.2 =
      ⟨cursor.text, cursor.skipBlanks.position + token.text.length⟩ := by
    rw [next_of_scan scanned, if_neg defined]
  have positive : 0 < token.text.length :=
    List.length_pos_iff.mpr (scan_text_ne_nil scanned passed)
  rw [stop] at inside ⊢
  have blanksBefore : cursor.skipBlanks.position < place := by
    rcases inside with before | ⟨atEnd, -⟩ <;> dsimp only at * <;> omega
  have skipped := skipBlanks_continued blanksBefore within more
  obtain ⟨known, rest, length, here, there⟩ :=
    remaining_continued (Nat.le_of_lt blanksBefore) within more
  have scannedThere : scan (cursor.continued place more).skipBlanks.remaining =
      .ok ⟨token.kind, token.text⟩ := by
    rw [skipped, there]
    rw [here] at scanned
    apply scan_known more scanned passed
    rcases inside with before | ⟨atEnd, closes⟩
    · exact .inl (by dsimp only at *; omega)
    · exact .inr ⟨by dsimp only at *; omega, closes⟩
  rw [next_of_scan scannedThere, if_neg defined, skipped]
  obtain ⟨kind, text, place⟩ := token
  cases start
  rfl

namespace Reads

variable {token : Token} {tokens : List Token}

/-- Tokens that are read up to a cursor before the place are read as before. -/
theorem continued (reads : start.Reads tokens finish) (valid : start.Valid)
    (passes : ∀ token ∈ tokens, token.kind.isFinal = false) (before : finish.position < place)
    (within : place ≤ start.text.length) (more : List Char) :
    (start.continued place more).Reads tokens (finish.continued place more) := by
  induction reads with
  | nil => exact .nil _
  | cons taken rest inductionHypothesis =>
      have leads := next_leads valid
      have onward := (rest.leads leads.valid).forward
      have later := inductionHypothesis leads.valid
        (fun token member => passes token (List.mem_cons_of_mem _ member)) before
        (by rw [leads.text]; exact within)
      have next := next_continued taken (passes _ (List.mem_cons_self ..)) (.inl (by omega))
        within more
      apply Reads.cons
      · rw [next]
      · rw [next]
        exact later

/-- Tokens that end with a closing parenthesis are read as before, whatever follows it. -/
theorem continued_behind {closing : Token} (reads : start.Reads (tokens ++ [closing]) finish)
    (valid : start.Valid) (passes : ∀ token ∈ tokens, token.kind.isFinal = false)
    (closes : closing.kind = .closeParen) (more : List Char) :
    (start.continued finish.position more).Reads (tokens ++ [closing])
      (finish.continued finish.position more) := by
  have passed : closing.kind.isFinal = false := by
    rw [closes]
    rfl
  have within : finish.position ≤ start.text.length := by
    have leads := reads.leads valid
    rw [← leads.text]
    exact leads.valid
  obtain ⟨middle, first, last⟩ := reads.split
  obtain _ | ⟨taken, ⟨⟩⟩ := last
  have leads := first.leads valid
  have advances : middle.position < middle.next.2.position :=
    Nat.lt_of_le_of_lt (next_start leads.valid taken) (next_passes taken passed)
  have before := first.continued valid passes advances within more
  have next := next_continued taken passed (.inr ⟨rfl, closes⟩) (by rw [leads.text]; exact within)
    more
  apply before.append
  apply Reads.cons
  · rw [next]
  · rw [next]
    exact .nil _

end Reads

end Cursor

end SlotLogic
