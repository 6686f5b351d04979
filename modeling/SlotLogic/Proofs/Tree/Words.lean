import SlotLogic.Proofs.Statement.RoundTrip
import SlotLogic.Proofs.Token.Spelling

/-!
Contract: the words of a canonical text, and words that differ by parentheses only.

Owns: the words of a tree, their agreement with its text, and the dropping of
parentheses from a list of words.

A word is the spelling of one token. The words of a tree and its text are written by the
same rules, so the text is its words with blanks between some of them.

Does not own: the texts that are read as a tree.
-/

set_option autoImplicit false

namespace SlotLogic

open SlotLogic.Text

/-! ## Words that differ by parentheses -/

def openWord : List Char := ['(']

def closeWord : List Char := [')']

/-- Dropping some parentheses from words leaves other words. -/
inductive ThinsTo : List (List Char) → List (List Char) → Prop where
  | nil : ThinsTo [] []
  | keep {words kept : List (List Char)} (word : List Char) (rest : ThinsTo words kept) :
      ThinsTo (word :: words) (word :: kept)
  | drop {word : List Char} {words kept : List (List Char)}
      (parenthesis : word = openWord ∨ word = closeWord) (rest : ThinsTo words kept) :
      ThinsTo (word :: words) kept

namespace ThinsTo

variable {words kept least others keptOthers : List (List Char)}

theorem refl (words : List (List Char)) : ThinsTo words words := by
  induction words with
  | nil => exact .nil
  | cons word rest inductionHypothesis => exact .keep word inductionHypothesis

theorem trans (first : ThinsTo words kept) (second : ThinsTo kept least) :
    ThinsTo words least := by
  induction first generalizing least with
  | nil => exact second
  | keep word _ inductionHypothesis =>
      cases second with
      | keep _ rest => exact .keep word (inductionHypothesis rest)
      | drop parenthesis rest => exact .drop parenthesis (inductionHypothesis rest)
  | drop parenthesis _ inductionHypothesis => exact .drop parenthesis (inductionHypothesis second)

theorem append (first : ThinsTo words kept) (second : ThinsTo others keptOthers) :
    ThinsTo (words ++ others) (kept ++ keptOthers) := by
  induction first with
  | nil => exact second
  | keep word _ inductionHypothesis => exact .keep word inductionHypothesis
  | drop parenthesis _ inductionHypothesis => exact .drop parenthesis inductionHypothesis

theorem sublist (thins : ThinsTo words kept) : kept.Sublist words := by
  induction thins with
  | nil => exact .slnil
  | keep word _ inductionHypothesis => exact .cons_cons word inductionHypothesis
  | drop _ _ inductionHypothesis => exact .cons _ inductionHypothesis

theorem length_flatten_le (thins : ThinsTo words kept) :
    kept.flatten.length ≤ words.flatten.length := by
  induction thins with
  | nil => exact Nat.le_refl _
  | keep word _ inductionHypothesis =>
      simp only [List.flatten_cons, List.length_append]
      omega
  | drop _ _ inductionHypothesis =>
      simp only [List.flatten_cons, List.length_append]
      omega

/-- Where no character goes, no parenthesis is dropped. -/
theorem eq_of_length_le (thins : ThinsTo words kept)
    (whole : words.flatten.length ≤ kept.flatten.length) : words = kept := by
  induction thins with
  | nil => rfl
  | keep word _ inductionHypothesis =>
      simp only [List.flatten_cons, List.length_append] at whole
      rw [inductionHypothesis (by omega)]
  | drop parenthesis rest _ =>
      have bound := rest.length_flatten_le
      rcases parenthesis with rfl | rfl <;>
        · simp only [List.flatten_cons, List.length_append, openWord, closeWord,
            List.length_singleton] at whole
          omega

end ThinsTo

/-! ## The words of a tree -/

/-- The word of a connective. -/
def Connective.word : Connective → List Char
  | .and => ['a', 'n', 'd']
  | .or => ['o', 'r']

theorem literal_of_connective (operator : Connective) :
    (⟨operator.word, operator.kind⟩ : Literal) ∈ literals := by
  cases operator <;> decide

/-- Words in parentheses, where they stand in parentheses. -/
def encloseWords (enclosed : Bool) (words : List (List Char)) : List (List Char) :=
  if enclosed then openWord :: (words ++ [closeWord]) else words

/-- Words in parentheses are thinned inside them, and the parentheses may go. -/
theorem ThinsTo.enclosed {words kept : List (List Char)} (thins : ThinsTo words kept)
    (enclosed : Bool) :
    ThinsTo (openWord :: (words ++ [closeWord])) (encloseWords enclosed kept) := by
  cases enclosed with
  | true => exact .keep openWord (thins.append (.refl [closeWord]))
  | false =>
      have closing : ThinsTo [closeWord] [] := .drop (.inr rfl) .nil
      have inside := thins.append closing
      rw [List.append_nil] at inside
      exact .drop (.inl rfl) inside

/-- Parentheses that are not needed may go. -/
theorem ThinsTo.encloseWords_of_imp {words kept : List (List Char)} {enclosed needed : Bool}
    (thins : ThinsTo words (encloseWords enclosed kept))
    (covered : needed = true → enclosed = true) : ThinsTo words (encloseWords needed kept) := by
  cases enclosed with
  | true => exact thins.trans ((ThinsTo.refl kept).enclosed needed)
  | false =>
      cases needed with
      | true => cases covered rfl
      | false => exact thins

/-- The words of the canonical text of a tree. -/
def Tree.words {Foreign : Type} : Tree Foreign → List (List Char)
  | null => [['n', 'u', 'l', 'l']]
  | slot index => [writeInteger index]
  | connect operator left right =>
    encloseWords (left.isEnclosed operator .left) left.words ++
      operator.word :: encloseWords (right.isEnclosed operator .right) right.words
  | compare operator left right => left.words ++ operator.spelling :: right.words
  | choose condition consequent alternative =>
    ['i', 'f'] :: openWord :: (condition.words ++ [';'] :: (consequent.words ++
      [';'] :: (alternative.words ++ [closeWord])))
  | foreign _ => []

theorem solid_writeInteger (number : Int) : solid (writeInteger number) = writeInteger number := by
  apply solid_of_solid
  intro c member
  rcases List.mem_append.mp member with sign | digit
  · split at sign
    · rw [List.mem_singleton.mp sign]
      rfl
    · cases sign
  · exact not_blank_of_digit (Nat.isDigit_of_mem_toDigits (by decide) (by decide) digit)

theorem solid_enclose {text : List Char} {words : List (List Char)} (enclosed : Bool)
    (same : solid text = words.flatten) :
    solid (Tree.enclose enclosed text) = (encloseWords enclosed words).flatten := by
  cases enclosed with
  | false => exact same
  | true =>
      show solid (['('] ++ text ++ [')']) = _
      rw [solid_append, solid_append, same]
      simp [encloseWords, openWord, closeWord, solid, isBlank]

theorem solid_connective (operator : Connective) : solid operator.spelling = operator.word := by
  cases operator <;> rfl

theorem solid_comparison (operator : Comparison) :
    solid operator.spelling = operator.spelling := by
  cases operator <;> rfl

/-- The canonical text without blanks is its words. -/
theorem Expr.solid_text (expr : Expr) : solid expr.text = expr.words.flatten := by
  induction expr with
  | null => rfl
  | slot index =>
      show solid (writeInteger index) = [writeInteger index].flatten
      rw [solid_writeInteger, List.flatten_singleton]
  | connect operator left right leftHypothesis rightHypothesis =>
      rw [Expr.text, solid_append, solid_append, solid_enclose _ leftHypothesis,
        solid_enclose _ rightHypothesis, solid_connective, Tree.words, List.flatten_append,
        List.flatten_cons]
  | compare operator left right leftHypothesis rightHypothesis =>
      rw [Expr.text, solid_append, solid_append, leftHypothesis, rightHypothesis,
        solid_comparison, Tree.words, List.flatten_append, List.flatten_cons]
  | choose condition consequent alternative test thenBranch elseBranch =>
      rw [Expr.text]
      simp only [solid_append, test, thenBranch, elseBranch, Tree.words, List.flatten_append,
        List.flatten_cons]
      simp [solid, isBlank, openWord, closeWord]
  | foreign leaf => exact leaf.elim

end SlotLogic
