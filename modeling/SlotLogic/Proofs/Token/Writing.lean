import SlotLogic.Proofs.Grammar.Phrase
import SlotLogic.Proofs.Token.Reading
import SlotLogic.Tree.Source

/-!
Contract: what is written as a token is taken as this token.

Owns: the scan of written numerals, words and comparisons in front of any text that
does not run on with them, and the step of a cursor over them.

A numeral runs on with a digit, and a comparison with a second sign; no other word
runs on with anything. Blanks before a token are passed, so a cursor is described by
the text that it faces behind blanks.

Does not own: trees.
-/

set_option autoImplicit false

namespace SlotLogic

open SlotLogic.Text

/-! ## Where a class ends -/

section

variable {α : Type} {class? : α → Bool} {list : List α}

theorem takeWhile_of_head? (stops : ∀ a ∈ list.head?, class? a = false) :
    list.takeWhile class? = [] := by
  cases list with
  | nil => rfl
  | cons a rest => exact List.takeWhile_cons_of_neg (by simp [stops a rfl])

theorem dropWhile_of_head? (stops : ∀ a ∈ list.head?, class? a = false) :
    list.dropWhile class? = list := by
  cases list with
  | nil => rfl
  | cons a rest => exact List.dropWhile_cons_of_neg (by simp [stops a rfl])

/-- Behind all members of a class at the front stands none of them. -/
theorem head?_dropWhile : ∀ a ∈ (list.dropWhile class?).head?, class? a = false := by
  intro a member
  have stops := List.head?_dropWhile_not class? list
  rw [Option.mem_def.mp member] at stops
  exact stops

end

/-! ## Numerals -/

theorem digit_bounds {c : Char} (digit : c.isDigit = true) : 48 ≤ c.toNat ∧ c.toNat ≤ 57 := by
  simp only [Char.isDigit, Bool.and_eq_true, decide_eq_true_eq] at digit
  exact digit

theorem not_blank_of_digit {c : Char} (digit : c.isDigit = true) : isBlank c = false := by
  have bounds := digit_bounds digit
  have notSpace : c ≠ ' ' := by
    rintro rfl
    revert bounds
    decide
  simp [isBlank, notSpace]
  omega

/-- No numeral goes on with this text. -/
def EndsNumeral (rest : List Char) : Prop :=
  ∀ c ∈ rest.head?, c.isDigit = false

theorem endsNumeral_nil : EndsNumeral [] := by
  intro c member
  cases member

theorem endsNumeral_cons {c : Char} (rest : List Char) (other : c.isDigit = false) :
    EndsNumeral (c :: rest) := by
  intro head member
  cases member
  exact other

/-- Digits in front of such a text are a whole numeral. -/
theorem EndsNumeral.takeWhile {digits rest : List Char} (ends : EndsNumeral rest)
    (all : ∀ c ∈ digits, c.isDigit = true) :
    (digits ++ rest).takeWhile Char.isDigit = digits := by
  rw [List.takeWhile_append_of_pos all, takeWhile_of_head? ends, List.append_nil]

/-- The decimal digits of a positive number start with a digit other than zero. -/
theorem toDigits_leading (number : Nat) (positive : 0 < number) :
    ∃ c rest, Nat.toDigits 10 number = c :: rest ∧ isLeadingDigit c = true := by
  induction number using Nat.strongRecOn with
  | ind number inductionHypothesis =>
      by_cases small : number < 10
      · refine ⟨number.digitChar, [], Nat.toDigits_of_lt_base small, ?_⟩
        have nonzero : number ≠ 0 := by omega
        simp [isLeadingDigit, small, nonzero]
      · obtain ⟨c, rest, digits, leading⟩ :=
          inductionHypothesis (number / 10) (by omega) (by omega)
        refine ⟨c, rest ++ [(number % 10).digitChar], ?_, leading⟩
        rw [Nat.toDigits_of_base_le (by decide) (by omega), digits]
        rfl

theorem numeralValue_toDigits (number : Nat) :
    numeralValue (Nat.toDigits 10 number) = number := by
  have value : Nat.ofDigitChars 10 (Nat.toDigits 10 number) 0 = number :=
    Nat.ofDigitChars_ten_toDigits
  rw [Nat.ofDigitChars_eq_foldl] at value
  rw [numeralValue, digitsValue, List.foldl_map]
  exact value

theorem literals_start : ∀ literal ∈ literals,
    literal.text.head?.all (fun c => !c.isDigit && !isBlank c) = true := by
  decide

/-- A literal starts with a character that is neither a digit nor a blank. -/
theorem literal_starts {literal : Literal} (member : literal ∈ literals) :
    ∃ c rest, literal.text = c :: rest ∧ c.isDigit = false ∧ isBlank c = false := by
  have start := literals_start literal member
  cases characters : literal.text with
  | nil => exact absurd characters (literals_are_words literal member).1
  | cons c rest =>
      rw [characters] at start
      have apart : c.isDigit = false ∧ isBlank c = false := by simpa using start
      exact ⟨c, rest, rfl, apart⟩

theorem no_literal_of_digit {c : Char} (rest : List Char) (digit : c.isDigit = true) :
    (literals.find? fun literal => literal.text.isPrefixOf (c :: rest)) = none := by
  rw [List.find?_eq_none]
  intro literal member begins
  obtain ⟨tail, same⟩ := List.isPrefixOf_iff_prefix.mp begins
  obtain ⟨head, others, characters, other, -⟩ := literal_starts member
  rw [characters] at same
  cases same
  rw [digit] at other
  cases other

theorem scan_of_leading {c : Char} (rest : List Char) (leading : isLeadingDigit c = true) :
    scan (c :: rest) = numeralLexeme ((c :: rest).takeWhile Char.isDigit) := by
  rw [scan_of_cons, no_literal_of_digit rest (isDigit_of_leading leading)]
  exact if_pos leading

/-- The digits of an index that a statement can name are scanned as a numeral. -/
theorem scan_numeral (index : Nat) {rest : List Char} (positive : 1 ≤ index)
    (within : index ≤ greatestIndex) (ends : EndsNumeral rest) :
    scan (Nat.toDigits 10 index ++ rest) = .ok ⟨.number, Nat.toDigits 10 index⟩ := by
  obtain ⟨c, more, digits, leading⟩ := toDigits_leading index positive
  have all : ∀ c ∈ Nat.toDigits 10 index, c.isDigit = true := fun _ member =>
    Nat.isDigit_of_mem_toDigits (by decide) (by decide) member
  have maximal := ends.takeWhile all
  have short : (Nat.toDigits 10 index).length ≤ 3 := by
    apply (Nat.length_toDigits_le_iff (by decide) (by decide)).mpr
    unfold greatestIndex at within
    omega
  have limit : ¬digitLimit < (Nat.toDigits 10 index).length := by
    unfold digitLimit
    omega
  rw [digits] at maximal limit ⊢
  rw [List.cons_append] at maximal ⊢
  rw [scan_of_leading _ leading, maximal, numeralLexeme, if_neg limit, ← digits,
    numeralValue_toDigits, if_pos within]

/-! ## Words -/

/-- A comparison is scanned where no second sign follows it. -/
theorem scan_comparison (operator : Comparison) {c : Char} (rest : List Char)
    (notEq : c ≠ '=') (notGt : c ≠ '>') :
    scan (operator.spelling ++ c :: rest) = .ok ⟨operator.kind, operator.spelling⟩ := by
  cases operator <;>
    simp [Comparison.spelling, Comparison.kind, scan_of_cons, literals, List.isPrefixOf, notEq.symm,
      notGt.symm]

/-- The characters of a lexeme that is not final start with no blank. -/
theorem scan_solid {text : List Char} {lexeme : Lexeme} (scanned : scan text = .ok lexeme)
    (passed : lexeme.kind.isFinal = false) : ∃ c rest, text = c :: rest ∧ isBlank c = false := by
  rcases scan_sources scanned with ⟨-, rfl⟩ | ⟨literal, found, rfl⟩ |
    ⟨c, rest, rfl, leading, -⟩ | ⟨c, rest, -, rfl⟩
  · cases passed
  · obtain ⟨member, tail, rfl⟩ := literal_of_find found
    obtain ⟨c, others, characters, -, solid⟩ := literal_starts member
    exact ⟨c, others ++ tail, by rw [characters, List.cons_append], solid⟩
  · exact ⟨c, rest, rfl, not_blank_of_digit (isDigit_of_leading leading)⟩
  · cases passed

/-! ## A cursor in front of a token -/

namespace Cursor

/-- Where the blanks at a cursor end no blank stands. -/
theorem skipBlanks_stops (cursor : Cursor) :
    ∀ c ∈ cursor.skipBlanks.remaining.head?, isBlank c = false := by
  rw [skipBlanks_remaining]
  exact head?_dropWhile

/-- Only blanks stand between a cursor and a text. -/
def Faces (cursor : Cursor) (text : List Char) : Prop :=
  ∃ blanks, (∀ c ∈ blanks, isBlank c = true) ∧ cursor.remaining = blanks ++ text

theorem faces_of_remaining {cursor : Cursor} {text : List Char}
    (remaining : cursor.remaining = text) : cursor.Faces text := by
  refine ⟨[], ?_, remaining⟩
  intro c member
  cases member

theorem faces_of_blank {cursor : Cursor} {c : Char} {text : List Char} (blank : isBlank c = true)
    (remaining : cursor.remaining = c :: text) : cursor.Faces text := by
  refine ⟨[c], ?_, remaining⟩
  intro other member
  rw [List.mem_singleton.mp member]
  exact blank

/-- The first character that is no blank is where the blanks end. -/
theorem Faces.skipBlanks_remaining {cursor : Cursor} {c : Char} {rest : List Char}
    (faces : cursor.Faces (c :: rest)) (solid : isBlank c = false) :
    cursor.skipBlanks.remaining = c :: rest := by
  obtain ⟨blanks, blank, remaining⟩ := faces
  rw [Cursor.skipBlanks_remaining, remaining, List.dropWhile_append_of_pos blank,
    List.dropWhile_cons_of_neg (by simp [solid])]

/-- A cursor that faces a scanned token takes it, and stops right behind it. -/
theorem next_of_faces (kind : Kind) {cursor : Cursor} {chars rest : List Char}
    (faces : cursor.Faces (chars ++ rest)) (scanned : scan (chars ++ rest) = .ok ⟨kind, chars⟩)
    (passed : kind.isFinal = false) :
    ∃ token, cursor.next.1 = .ok token ∧ token.kind = kind ∧ token.text = chars ∧
      cursor.next.2.remaining = rest := by
  have here : cursor.skipBlanks.remaining = chars ++ rest := by
    obtain ⟨c, tail, start, solid⟩ := scan_solid scanned passed
    rw [start] at faces ⊢
    exact faces.skipBlanks_remaining solid
  have defined : kind ≠ .undefined := by
    rintro rfl
    cases passed
  rw [← here] at scanned
  rw [next_of_scan scanned, if_neg defined]
  refine ⟨_, rfl, rfl, rfl, ?_⟩
  have behind : cursor.skipBlanks.remaining.drop chars.length = rest := by
    rw [here]
    exact List.drop_left
  rw [← behind]
  simp only [Cursor.remaining, skipBlanks, List.drop_drop]

end Cursor

end SlotLogic
