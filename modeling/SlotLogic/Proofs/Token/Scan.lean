import Mathlib.Data.List.Find
import SlotLogic.Token.Basic

/-!
Contract: what the scan of the characters at a cursor can yield.

Owns: the literals that begin a window, the three sources of a lexeme, the bound
on the characters that it takes, and the range of the index that a numeral names.

A literal begins the window of a text exactly if it begins the text
(`prefix_window_iff`), so `scan_of_cons` tells the scan without its window.
`scan_sources` says everything that a lexeme can be. What follows it is derived
from that statement, without opening the scan again.

Does not own: blanks and positions.
-/

set_option autoImplicit false

namespace SlotLogic

open SlotLogic.Text

/-! ## Literals -/

/-- No literal is empty, and none has the kind of a numeral or a final kind. -/
theorem literals_are_words : ∀ literal ∈ literals,
    literal.text ≠ [] ∧ literal.kind.isFinal = false ∧ literal.kind ≠ .number := by
  decide

/-- A literal that is found begins the text. -/
theorem literal_of_find {text : List Char} {literal : Literal}
    (found : (literals.find? fun literal => literal.text.isPrefixOf text) = some literal) :
    literal ∈ literals ∧ literal.text <+: text := by
  refine ⟨List.mem_of_find?_eq_some found, ?_⟩
  have begins := List.find?_some found
  exact List.isPrefixOf_iff_prefix.mp begins

/-! ## The window -/

/-- Every literal has its place in the window, and no blank in it. -/
theorem literals_fit : ∀ literal ∈ literals,
    literal.text.length ≤ windowWidth ∧ ' ' ∉ literal.text := by
  decide

/-- A short word without a blank begins the window of a text if and only if it begins
the text: it can neither end beyond the window nor reach into its filling. -/
theorem prefix_window_iff {word text : List Char} (short : word.length ≤ windowWidth)
    (solid : ' ' ∉ word) : word <+: window text ↔ word <+: text := by
  unfold window List.rightpad
  constructor
  · intro begins
    rcases List.prefix_or_prefix_of_prefix begins (List.prefix_append ..) with
      inside | ⟨filling, rfl⟩
    · exact inside.trans (List.take_prefix ..)
    · have fills := (List.prefix_append_right_inj _).mp begins
      cases filling with
      | nil =>
          rw [List.append_nil]
          exact List.take_prefix ..
      | cons c more =>
          have blank : c = ' ' :=
            List.eq_of_mem_replicate (fills.subset List.mem_cons_self)
          exact absurd (by simp [blank]) solid
  · intro begins
    exact (List.prefix_take_iff.mpr ⟨begins, short⟩).trans (List.prefix_append ..)

theorem find_window (text : List Char) :
    (literals.find? fun literal => literal.text.isPrefixOf (window text)) =
      literals.find? fun literal => literal.text.isPrefixOf text := by
  apply List.find?_congr
  intro literal member
  obtain ⟨short, solid⟩ := literals_fit literal member
  rw [Bool.eq_iff_iff, List.isPrefixOf_iff_prefix, List.isPrefixOf_iff_prefix]
  exact prefix_window_iff short solid

/-- The scan of a text that has a character, without the window. -/
theorem scan_of_cons (c : Char) (rest : List Char) :
    scan (c :: rest) =
      match literals.find? fun literal => literal.text.isPrefixOf (c :: rest) with
      | some literal => .ok ⟨literal.kind, literal.text⟩
      | none =>
        if isLeadingDigit c then numeralLexeme ((c :: rest).takeWhile Char.isDigit)
        else .ok ⟨.undefined, [c]⟩ := by
  cases found : literals.find? fun literal => literal.text.isPrefixOf (c :: rest) <;>
    simp only [scan, find_window, found]

/-! ## Numerals -/

theorem isDigit_of_leading {c : Char} (leading : isLeadingDigit c = true) :
    c.isDigit = true := by
  simp only [isLeadingDigit, Bool.and_eq_true] at leading
  exact leading.1

private theorem foldl_digits_ge (digits : List Nat) (start : Nat) :
    start ≤ digits.foldl (fun acc digit => 10 * acc + digit) start := by
  induction digits generalizing start with
  | nil => exact Nat.le_refl start
  | cons digit rest inductionHypothesis =>
      have later := inductionHypothesis (10 * start + digit)
      simp only [List.foldl_cons]
      omega

/-- A numeral with a leading digit other than zero spells a positive number. -/
theorem numeralValue_pos {c : Char} (rest : List Char) (leading : isLeadingDigit c = true) :
    1 ≤ numeralValue (c :: rest) := by
  have digit : 1 ≤ c.toNat - '0'.toNat := by
    simp only [isLeadingDigit, Char.isDigit, Bool.and_eq_true, decide_eq_true_eq, bne_iff_ne,
      ne_eq] at leading
    obtain ⟨⟨low, -⟩, nonzero⟩ := leading
    have apart : c.toNat ≠ '0'.toNat := fun same => nonzero (Char.toNat_inj.mp same)
    have least : '0'.toNat ≤ c.toNat := low
    omega
  have grown := foldl_digits_ge (rest.map fun c => c.toNat - '0'.toNat) (c.toNat - '0'.toNat)
  simp only [numeralValue, digitsValue, List.map_cons, List.foldl_cons, Nat.mul_zero,
    Nat.zero_add]
  omega

/-- The lexeme of a digit string has all of the digits. -/
theorem numeralLexeme_ok {digits : List Char} {lexeme : Lexeme}
    (numeral : numeralLexeme digits = .ok lexeme) :
    lexeme.text = digits ∧
      lexeme.kind = if numeralValue lexeme.text ≤ greatestIndex then .number else .undefined := by
  unfold numeralLexeme at numeral
  split at numeral
  · cases numeral
  · split at numeral <;> cases numeral <;> rename_i bound <;> exact ⟨rfl, by simp [bound]⟩

/-! ## The scan -/

/-- Everything that a lexeme can be: the end of the text, the first literal that begins
it, a maximal numeral, or a single character that starts nothing. -/
theorem scan_sources {text : List Char} {lexeme : Lexeme} (scanned : scan text = .ok lexeme) :
    (text = [] ∧ lexeme = ⟨.endOfText, []⟩) ∨
    (∃ literal, (literals.find? fun literal => literal.text.isPrefixOf text) = some literal ∧
      lexeme = ⟨literal.kind, literal.text⟩) ∨
    (∃ c rest, text = c :: rest ∧ isLeadingDigit c = true ∧
      numeralLexeme ((c :: rest).takeWhile Char.isDigit) = .ok lexeme) ∨
    (∃ c rest, text = c :: rest ∧ lexeme = ⟨.undefined, [c]⟩) := by
  cases text with
  | nil =>
      simp only [scan, Except.ok.injEq] at scanned
      exact .inl ⟨rfl, scanned.symm⟩
  | cons c rest =>
      rw [scan_of_cons] at scanned
      split at scanned
      · rename_i literal found
        exact .inr (.inl ⟨literal, found, (Except.ok.inj scanned).symm⟩)
      · split at scanned
        · rename_i leading
          exact .inr (.inr (.inl ⟨c, rest, rfl, leading, scanned⟩))
        · cases Except.ok.inj scanned
          exact .inr (.inr (.inr ⟨c, rest, rfl, rfl⟩))

/-- The characters of a lexeme begin the text. -/
theorem scan_begins {text : List Char} {lexeme : Lexeme} (scanned : scan text = .ok lexeme) :
    lexeme.text <+: text := by
  rcases scan_sources scanned with ⟨-, rfl⟩ | ⟨literal, found, rfl⟩ |
    ⟨c, rest, rfl, -, numeral⟩ | ⟨c, rest, rfl, rfl⟩
  · exact List.nil_prefix
  · exact (literal_of_find found).2
  · rw [(numeralLexeme_ok numeral).1]
    exact List.takeWhile_prefix _
  · exact ⟨rest, rfl⟩

/-- A lexeme that is not final has a character. -/
theorem scan_text_ne_nil {text : List Char} {lexeme : Lexeme} (scanned : scan text = .ok lexeme)
    (passed : lexeme.kind.isFinal = false) : lexeme.text ≠ [] := by
  rcases scan_sources scanned with ⟨-, rfl⟩ | ⟨literal, found, rfl⟩ |
    ⟨c, rest, rfl, leading, numeral⟩ | ⟨c, rest, rfl, rfl⟩
  · simp [Kind.isFinal] at passed
  · exact (literals_are_words literal (literal_of_find found).1).1
  · simp [(numeralLexeme_ok numeral).1, isDigit_of_leading leading]
  · simp

/-- The end of the text is scanned only there. -/
theorem scan_endOfText {text characters : List Char}
    (scanned : scan text = .ok ⟨.endOfText, characters⟩) : text = [] := by
  rcases scan_sources scanned with ⟨empty, -⟩ | ⟨literal, found, same⟩ |
    ⟨c, rest, -, -, numeral⟩ | ⟨c, rest, -, same⟩
  · exact empty
  · have passed := (literals_are_words literal (literal_of_find found).1).2.1
    have kind : Kind.endOfText = literal.kind := congrArg Lexeme.kind same
    rw [← kind] at passed
    cases passed
  · have kind := (numeralLexeme_ok numeral).2
    simp only at kind
    split at kind <;> cases kind
  · cases same

/-- A numeral names one of the indices that a statement can name. -/
theorem scan_number_range {text : List Char} {lexeme : Lexeme} (scanned : scan text = .ok lexeme)
    (number : lexeme.kind = .number) :
    1 ≤ numeralValue lexeme.text ∧ numeralValue lexeme.text ≤ greatestIndex := by
  rcases scan_sources scanned with ⟨-, rfl⟩ | ⟨literal, found, rfl⟩ |
    ⟨c, rest, rfl, leading, numeral⟩ | ⟨c, rest, rfl, rfl⟩
  · cases number
  · exact absurd number (literals_are_words literal (literal_of_find found).1).2.2
  · obtain ⟨digits, kind⟩ := numeralLexeme_ok numeral
    constructor
    · rw [digits, List.takeWhile_cons_of_pos (isDigit_of_leading leading)]
      exact numeralValue_pos _ leading
    · by_cases within : numeralValue lexeme.text ≤ greatestIndex
      · exact within
      · rw [if_neg within, number] at kind
        cases kind
  · cases number

/-- Where a literal begins the text, it is scanned. -/
theorem scan_of_find {text : List Char} {literal : Literal}
    (found : (literals.find? fun literal => literal.text.isPrefixOf text) = some literal) :
    scan text = .ok ⟨literal.kind, literal.text⟩ := by
  cases text with
  | nil =>
      obtain ⟨member, begins⟩ := literal_of_find found
      exact absurd (List.prefix_nil.mp begins) (literals_are_words literal member).1
  | cons c rest =>
      rw [scan_of_cons, found]

end SlotLogic
