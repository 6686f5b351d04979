import Mathlib.Data.List.Induction
import Mathlib.Data.List.Nodup
import SlotLogic.Proofs.Token.Writing

/-!
Contract: the characters of a token, and a text as the characters of its tokens.

Owns: the spelling of a token by its kind or its index, and the text without blanks as
the spellings of the tokens that are read from it.

The kind of a word and the index of a numeral leave no choice of characters, because a
numeral has no leading zero. No blank stands inside a token.

Does not own: what tokens mean.
-/

set_option autoImplicit false

namespace SlotLogic

open SlotLogic.Text

/-! ## Digits -/

theorem toNat_digitChar : ∀ value < 10, (Nat.digitChar value).toNat = value + 48 := by
  decide

/-- A digit is written as itself. -/
theorem toDigits_digit {c : Char} (digit : c.isDigit = true) :
    Nat.toDigits 10 (c.toNat - '0'.toNat) = [c] := by
  have bounds := digit_bounds digit
  have small : c.toNat - '0'.toNat < 10 := by
    show c.toNat - 48 < 10
    omega
  rw [Nat.toDigits_of_lt_base small]
  congr 1
  apply Char.toNat_inj.mp
  rw [toNat_digitChar _ small]
  show c.toNat - 48 + 48 = c.toNat
  omega

theorem numeralValue_concat (digits : List Char) (last : Char) :
    numeralValue (digits ++ [last]) = 10 * numeralValue digits + (last.toNat - '0'.toNat) := by
  simp [numeralValue, digitsValue]

/-- A digit string without a leading zero is what its value is written as. -/
theorem toDigits_numeralValue {c : Char} (leading : isLeadingDigit c = true)
    (rest : List Char) (digits : ∀ digit ∈ rest, digit.isDigit = true) :
    Nat.toDigits 10 (numeralValue (c :: rest)) = c :: rest := by
  induction rest using List.reverseRecOn with
  | nil =>
      have value : numeralValue [c] = c.toNat - '0'.toNat := by
        simp [numeralValue, digitsValue]
      rw [value]
      exact toDigits_digit (isDigit_of_leading leading)
  | append_singleton earlier last inductionHypothesis =>
      have positive := numeralValue_pos earlier leading
      have written := inductionHypothesis fun digit member => digits digit (by simp [member])
      have lastDigit := digits last (by simp)
      have small : last.toNat - '0'.toNat < 10 := by
        have bounds := digit_bounds lastDigit
        show last.toNat - 48 < 10
        omega
      rw [← List.cons_append, numeralValue_concat,
        ← Nat.toDigits_append_toDigits (by decide) positive small, written,
        toDigits_digit lastDigit]

/-! ## The spelling of a token -/

/-- No two literals have one kind. -/
theorem nodup_kinds_of_literals : (literals.map Literal.kind).Nodup := by
  decide

theorem literals_solid : ∀ literal ∈ literals, literal.text.any isBlank = false := by
  decide

theorem literal_of_comparison (operator : Comparison) :
    (⟨operator.spelling, operator.kind⟩ : Literal) ∈ literals := by
  cases operator <;> decide

theorem kind_of_numeral {digits : List Char} {lexeme : Lexeme}
    (numeral : numeralLexeme digits = .ok lexeme) :
    lexeme.kind = .number ∨ lexeme.kind = .undefined := by
  have kind := (numeralLexeme_ok numeral).2
  split at kind
  · exact .inl kind
  · exact .inr kind

/-- What is scanned with the kind of a literal is this literal. -/
theorem scan_text_of_literal {text : List Char} {lexeme : Lexeme} {literal : Literal}
    (scanned : scan text = .ok lexeme) (member : literal ∈ literals)
    (kind : lexeme.kind = literal.kind) : lexeme.text = literal.text := by
  obtain ⟨-, passed, word⟩ := literals_are_words literal member
  rw [← kind] at passed word
  rcases scan_sources scanned with ⟨-, rfl⟩ | ⟨other, found, rfl⟩ | ⟨c, rest, -, -, numeral⟩ |
    ⟨c, rest, -, rfl⟩
  · cases passed
  · have otherMember := (literal_of_find found).1
    rw [List.inj_on_of_nodup_map nodup_kinds_of_literals otherMember member kind]
  · rcases kind_of_numeral numeral with number | undefined
    · exact absurd number word
    · rw [undefined] at passed
      cases passed
  · cases passed

/-- What is scanned as a numeral is what its value is written as. -/
theorem scan_text_of_number {text : List Char} {lexeme : Lexeme}
    (scanned : scan text = .ok lexeme) (number : lexeme.kind = .number) :
    lexeme.text = Nat.toDigits 10 (numeralValue lexeme.text) := by
  rcases scan_sources scanned with ⟨-, rfl⟩ | ⟨literal, found, rfl⟩ |
    ⟨c, rest, -, leading, numeral⟩ | ⟨c, rest, -, rfl⟩
  · cases number
  · exact absurd number (literals_are_words literal (literal_of_find found).1).2.2
  · have digits := (numeralLexeme_ok numeral).1
    rw [List.takeWhile_cons_of_pos (isDigit_of_leading leading)] at digits
    rw [digits]
    exact (toDigits_numeralValue leading _ fun _ member => List.mem_takeWhile_imp member).symm
  · cases number

theorem scan_text_of_end {text : List Char} {lexeme : Lexeme} (scanned : scan text = .ok lexeme)
    (ends : lexeme.kind = .endOfText) : lexeme.text = [] := by
  obtain ⟨kind, characters⟩ := lexeme
  cases ends
  cases scan_endOfText scanned
  cases scanned
  rfl

/-- A lexeme that is not final has no blank in it. -/
theorem scan_text_solid {text : List Char} {lexeme : Lexeme} (scanned : scan text = .ok lexeme)
    (passed : lexeme.kind.isFinal = false) : ∀ c ∈ lexeme.text, isBlank c = false := by
  rcases scan_sources scanned with ⟨-, rfl⟩ | ⟨literal, found, rfl⟩ | ⟨c, rest, -, -, numeral⟩ |
    ⟨c, rest, -, rfl⟩
  · cases passed
  · intro c member
    have solid := literals_solid literal (literal_of_find found).1
    exact Bool.eq_false_iff.mpr (List.any_eq_false.mp solid c member)
  · rw [(numeralLexeme_ok numeral).1]
    intro digit member
    exact not_blank_of_digit (List.mem_takeWhile_imp member)
  · cases passed

/-! ## The characters of a text -/

/-- The characters of a text that are no blanks. -/
def solid (text : List Char) : List Char :=
  text.filter fun c => !isBlank c

theorem solid_append (first second : List Char) :
    solid (first ++ second) = solid first ++ solid second :=
  List.filter_append _ _

theorem solid_of_blank {text : List Char} (blank : ∀ c ∈ text, isBlank c = true) :
    solid text = [] := by
  apply List.filter_eq_nil_iff.mpr
  intro c member
  simp [blank c member]

theorem solid_of_solid {text : List Char} (others : ∀ c ∈ text, isBlank c = false) :
    solid text = text := by
  apply List.filter_eq_self.mpr
  intro c member
  simp [others c member]

namespace Cursor

variable {start finish : Cursor}

theorem faces_skipBlanks (start : Cursor) : start.Faces start.skipBlanks.remaining := by
  refine ⟨start.remaining.takeWhile isBlank, fun c member => List.mem_takeWhile_imp member, ?_⟩
  rw [skipBlanks_remaining, List.takeWhile_append_dropWhile]

/-- A token that is taken is all that is passed besides blanks. -/
theorem next_solid {token : Token} (taken : start.next.1 = .ok token)
    (passed : token.kind.isFinal = false) :
    solid start.remaining = token.text ++ solid start.next.2.remaining := by
  obtain ⟨scanned, -⟩ := scan_of_next taken
  obtain ⟨rest, text⟩ := scan_begins scanned
  have faces := start.faces_skipBlanks
  rw [← text] at faces scanned
  obtain ⟨-, -, -, -, stops⟩ := next_of_faces token.kind faces scanned passed
  obtain ⟨blanks, blank, remaining⟩ := faces
  rw [stops, remaining, solid_append, solid_append, solid_of_blank blank,
    solid_of_solid (scan_text_solid scanned passed), List.nil_append]

/-- Tokens that are read, of which none is final, are all that is passed besides
blanks. -/
theorem Reads.solid {tokens : List Token} (reads : start.Reads tokens finish)
    (passes : ∀ token ∈ tokens, token.kind.isFinal = false) :
    solid start.remaining = (tokens.map Token.text).flatten ++ solid finish.remaining := by
  induction reads with
  | nil => rfl
  | cons taken _ inductionHypothesis =>
      have later := inductionHypothesis fun token member =>
        passes token (List.mem_cons_of_mem _ member)
      rw [next_solid taken (passes _ (List.mem_cons_self ..)), later, List.map_cons,
        List.flatten_cons, List.append_assoc]

end Cursor

end SlotLogic
