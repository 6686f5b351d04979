import SlotLogic.Proofs.Token.Writing
import Mathlib.Data.List.Basic

/-!
Contract: numerals in ASCII digits are read as the numbers that they spell.

Owns: the value of an ASCII digit among the digits of all scripts, the cutting of digits off a
text, trimming where nothing is to be cut, and the reading of a written integer.

Digits end in front of any character that is a digit of no script. A character of ASCII that is
none of the ten digits is such a character.

Does not own: decimals.
-/

set_option autoImplicit false

namespace SlotLogic.Text

/-! ## Digits -/

theorem digitValue?_of_isDigit {c : Char} (digit : c.isDigit = true) :
    digitValue? c = some (c.toNat - '0'.toNat) := by
  have bounds := digit_bounds digit
  obtain ⟨others, codes⟩ : ∃ others, zeroCodes = 0x30 :: others := ⟨_, rfl⟩
  rw [digitValue?, codes, List.find?_cons_of_pos]
  · rfl
  · simp only [Bool.and_eq_true, decide_eq_true_eq]
    omega

theorem isDecimalDigit_of_isDigit {c : Char} (digit : c.isDigit = true) :
    isDecimalDigit c = true := by
  rw [isDecimalDigit, digitValue?_of_isDigit digit]
  rfl

/-- ASCII digits are taken off up to a character that is no digit of any script. -/
theorem takeDigits_append {digits rest : List Char} (all : ∀ c ∈ digits, c.isDigit = true)
    (stops : ∀ c ∈ rest.head?, isDecimalDigit c = false) :
    takeDigits (digits ++ rest) = (digits.map fun c => c.toNat - '0'.toNat, rest) := by
  have members : ∀ c ∈ digits, isDecimalDigit c = true :=
    fun c member => isDecimalDigit_of_isDigit (all c member)
  have values : digits.filterMap digitValue? = digits.map fun c => c.toNat - '0'.toNat := by
    rw [List.filterMap_eq_map_iff_forall_eq_some]
    exact fun c member => digitValue?_of_isDigit (all c member)
  unfold takeDigits
  rw [List.takeWhile_append_of_pos members, takeWhile_of_head? stops, List.append_nil, values,
    List.dropWhile_append_of_pos members, dropWhile_of_head? stops]

theorem takeDigits_digits {digits : List Char} (all : ∀ c ∈ digits, c.isDigit = true) :
    takeDigits digits = (digits.map fun c => c.toNat - '0'.toNat, []) := by
  have taken : takeDigits (digits ++ []) = _ := takeDigits_append all (by simp)
  rw [List.append_nil] at taken
  exact taken

theorem isDigit_toDigits {number : Nat} : ∀ c ∈ Nat.toDigits 10 number, c.isDigit = true :=
  fun _ member => Nat.isDigit_of_mem_toDigits (by decide) (by decide) member

theorem toDigits_ne_nil (number : Nat) : Nat.toDigits 10 number ≠ [] :=
  List.length_pos_iff.mp Nat.length_toDigits_pos

/-- Zeros in front of digits do not change their value. -/
theorem numeralValue_zeros (count : Nat) (digits : List Char) :
    numeralValue (List.replicate count '0' ++ digits) = numeralValue digits := by
  induction count with
  | zero => rfl
  | succ count inductionHypothesis =>
      rw [List.replicate_succ, List.cons_append, ← inductionHypothesis]
      rfl

/-! ## Margins and signs -/

/-- Where no character belongs to the class, nothing is cut off. -/
theorem trim_of_none {class? : Char → Bool} {text : List Char}
    (none : ∀ c ∈ text, class? c = false) : trim class? text = text := by
  unfold trim
  rw [dropWhile_of_head? fun c head => none c (List.mem_of_mem_head? head),
    dropWhile_of_head? fun c head => none c (List.mem_reverse.mp (List.mem_of_mem_head? head)),
    List.reverse_reverse]

/-- A digit is not cut off, and is no sign and no separator. -/
theorem digit_apart {c : Char} (digit : c.isDigit = true) :
    isSpace c = false ∧ c ≠ '-' ∧ c ≠ '+' ∧ c ≠ '_' := by
  have bounds := digit_bounds digit
  have space : isSpace c = false := by
    rw [isSpace, not_blank_of_digit digit]
    simp only [Bool.false_or, Bool.or_eq_false_iff, Bool.and_eq_false_iff, decide_eq_false_iff_not,
      beq_eq_false_iff_ne]
    omega
  refine ⟨space, ?_, ?_, ?_⟩ <;>
    · rintro rfl
      exact absurd bounds (by decide)

theorem takeSign_digits {digits : List Char} (rest : List Char)
    (all : ∀ c ∈ digits, c.isDigit = true) (present : digits ≠ []) :
    takeSign (digits ++ rest) = (false, digits ++ rest) := by
  cases digits with
  | nil => exact absurd rfl present
  | cons c others =>
      obtain ⟨-, notMinus, notPlus, -⟩ := digit_apart (all c (List.mem_cons_self ..))
      rw [List.cons_append]
      unfold takeSign
      split
      · rename_i same
        exact absurd (List.cons.inj same).1 notMinus
      · rename_i same
        exact absurd (List.cons.inj same).1 notPlus
      · rfl

/-! ## Integers -/

theorem takeGroupedDigits_digits {digits : List Char} (all : ∀ c ∈ digits, c.isDigit = true) :
    takeGroupedDigits digits = (digits.map fun c => c.toNat - '0'.toNat, []) := by
  induction digits with
  | nil => rfl
  | cons c rest inductionHypothesis =>
      obtain ⟨digit, others⟩ := List.forall_mem_cons.mp all
      cases rest with
      | nil => exact takeDigits_digits all
      | cons separator rest =>
          obtain ⟨-, -, -, notUnderscore⟩ := digit_apart (others separator (by simp))
          rw [takeGroupedDigits, digitValue?_of_isDigit digit, inductionHypothesis others]
          simp only [if_neg notUnderscore]
          rfl

theorem takeSign_writeInteger (number : Int) :
    takeSign (writeInteger number) = (decide (number < 0), Nat.toDigits 10 number.natAbs) := by
  unfold writeInteger
  by_cases negative : number < 0
  · rw [if_pos negative, decide_eq_true negative]
    rfl
  · rw [if_neg negative, decide_eq_false negative, List.nil_append]
    have unsigned := takeSign_digits [] isDigit_toDigits (toDigits_ne_nil number.natAbs)
    rw [List.append_nil] at unsigned
    exact unsigned

/-- A written integer is read as itself, if it is not too long. -/
theorem readInteger_writeInteger {number : Int}
    (short : (Nat.toDigits 10 number.natAbs).length ≤ digitLimit) :
    readInteger (writeInteger number) = .ok number := by
  have solid : ∀ c ∈ writeInteger number, isMargin c = false := by
    intro c member
    rcases List.mem_append.mp member with sign | digit
    · split at sign <;> simp at sign
      subst sign
      decide
    · have digit := isDigit_toDigits c digit
      rw [isMargin, not_blank_of_digit digit, (digit_apart digit).1]
      rfl
  have value : digitsValue ((Nat.toDigits 10 number.natAbs).map fun c => c.toNat - '0'.toNat) =
      number.natAbs := numeralValue_toDigits number.natAbs
  unfold readInteger
  rw [trim_of_none solid, takeSign_writeInteger]
  simp only [takeGroupedDigits_digits isDigit_toDigits, value, List.length_map]
  rw [if_neg (by simp), if_neg (by omega), if_neg (by simp)]
  simp only [decide_eq_true_eq, Except.ok.injEq]
  split <;> omega

end SlotLogic.Text
