import SlotLogic.Decimal.Reader
import SlotLogic.Decimal.Writer
import SlotLogic.Proofs.Text.Numeral

/-!
Contract: the text of a decimal is read as this decimal, with its sign, its coefficient and its
exponent.

Owns: the characters of written decimals, the reading of digits with a point and an exponent, and
the two notations as such digits.

Both notations write digits before the point, so their texts are read by one law. Digits behind
the point lower the exponent that is read by their number, and both notations raise it by just as
many: plain notation by moving the point, scientific notation by naming the leading place. Zeros
that are filled in do not change the coefficient.

Does not own: decimals that are not finite, and those with an exponent that cannot be held.
-/

set_option autoImplicit false

namespace SlotLogic

open SlotLogic.Text

/-! ## Characters -/

/-- The characters that decimals are written with. -/
def Decimal.IsMark (c : Char) : Prop :=
  c.isDigit = true ∨ c = '-' ∨ c = '+' ∨ c = '.' ∨ c = 'E'

theorem Decimal.IsMark.apart {c : Char} (mark : IsMark c) : isSpace c = false ∧ c ≠ '_' := by
  rcases mark with digit | rfl | rfl | rfl | rfl
  · obtain ⟨space, -, -, notUnderscore⟩ := digit_apart digit
    exact ⟨space, notUnderscore⟩
  all_goals decide

/-! ## Digits with a point -/

/-- Digits behind a point, with the point; no digits go without it. -/
inductive Fraction : List Char → List Char → Prop where
  | none : Fraction [] []
  | point (digits : List Char) : Fraction digits ('.' :: digits)

/-- What stands behind the digits of a numeral: neither a digit nor a point. -/
def EndsDigits (tail : List Char) : Prop :=
  ∀ c ∈ tail.head?, isDecimalDigit c = false ∧ c ≠ '.'

namespace ExtendedDecimal

theorem takeFraction_append {digits marked tail : List Char} (fraction : Fraction digits marked)
    (all : ∀ c ∈ digits, c.isDigit = true) (ends : EndsDigits tail) :
    takeFraction (marked ++ tail) = (digits.map fun c => c.toNat - '0'.toNat, tail) := by
  cases fraction with
  | point => exact takeDigits_append all fun c head => (ends c head).1
  | none =>
      rw [List.nil_append]
      unfold takeFraction
      split
      · exact absurd rfl (ends '.' rfl).2
      · rfl

/-- The parts of a text that spells a decimal without its sign: digits, digits behind a point, and
an exponent that is raised by the number of the latter. -/
structure Layout (number : Decimal) (whole digits marked tail : List Char) : Prop where
  fraction : Fraction digits marked
  wholeDigits : ∀ c ∈ whole, c.isDigit = true
  present : whole ≠ []
  fractionDigits : ∀ c ∈ digits, c.isDigit = true
  ends : EndsDigits tail
  tailMarks : ∀ c ∈ tail, Decimal.IsMark c
  coefficient : numeralValue (whole ++ digits) = number.coefficient
  exponent : readExponent tail = some (number.exponent + digits.length)

theorem Layout.marks {number : Decimal} {whole digits marked tail : List Char}
    (layout : Layout number whole digits marked tail) :
    ∀ c ∈ whole ++ (marked ++ tail), Decimal.IsMark c := by
  have behind : ∀ c ∈ marked, Decimal.IsMark c := by
    have fractionDigits := layout.fractionDigits
    cases layout.fraction with
    | none => exact nofun
    | point => exact List.forall_mem_cons.mpr ⟨.inr (by decide), fun c member =>
        .inl (fractionDigits c member)⟩
  exact List.forall_mem_append.mpr ⟨fun c member => .inl (layout.wholeDigits c member),
    List.forall_mem_append.mpr ⟨behind, layout.tailMarks⟩⟩

theorem readFinite_layout {number : Decimal} {whole digits marked tail : List Char}
    (representable : number.isRepresentable = true)
    (layout : Layout number whole digits marked tail) :
    readFinite number.negative (whole ++ (marked ++ tail)) = some (.finite number) := by
  have stops : ∀ c ∈ (marked ++ tail).head?, isDecimalDigit c = false := by
    cases layout.fraction with
    | none => exact fun c head => (layout.ends c head).1
    | point =>
        rintro c ⟨⟩
        decide
  have coefficient : digitsValue ((whole.map fun c => c.toNat - '0'.toNat) ++
      digits.map fun c => c.toNat - '0'.toNat) = number.coefficient := by
    rw [← List.map_append]
    exact layout.coefficient
  have exponent : number.exponent + digits.length -
      ((digits.map fun c => c.toNat - '0'.toNat).length : Int) = number.exponent := by
    rw [List.length_map]
    omega
  unfold readFinite
  rw [takeDigits_append layout.wholeDigits stops]
  simp only [takeFraction_append layout.fraction layout.fractionDigits layout.ends,
    layout.exponent, coefficient]
  rw [if_neg (by simp [layout.present])]
  show (if Decimal.isRepresentable ⟨_, _, _⟩ = true then _ else _) = _
  rw [exponent, if_pos representable]

end ExtendedDecimal

/-! ## The two notations -/

namespace Decimal

open ExtendedDecimal

theorem takeSign_signedInteger (number : Int) :
    takeSign (signedInteger number) =
      (decide (number < 0), Nat.toDigits 10 number.natAbs) := by
  unfold signedInteger
  by_cases negative : number < 0
  · rw [if_pos negative, decide_eq_true negative]
    rfl
  · rw [if_neg negative, decide_eq_false negative]
    rfl

theorem readExponent_signedInteger (exponent : Int) :
    readExponent ('E' :: signedInteger exponent) = some exponent := by
  -- The reader refuses an exponent without digits, so the first digit is named.
  obtain ⟨first, rest, written⟩ := List.exists_cons_of_ne_nil (toDigits_ne_nil exponent.natAbs)
  have taken : takeDigits (first :: rest) =
      ((first :: rest).map fun c => c.toNat - '0'.toNat, []) := by
    rw [← written]
    exact takeDigits_digits isDigit_toDigits
  have value : digitsValue ((first :: rest).map fun c => c.toNat - '0'.toNat) =
      exponent.natAbs := by
    rw [← written]
    exact numeralValue_toDigits exponent.natAbs
  rw [List.map_cons] at taken value
  unfold readExponent
  simp only [takeSign_signedInteger, written, taken, value, decide_eq_true_eq]
  rw [if_pos (by decide), Option.some.injEq]
  split <;> omega

theorem endsDigits_exponent (exponent : Int) : EndsDigits ('E' :: signedInteger exponent) := by
  rintro c ⟨⟩
  exact ⟨by decide, by decide⟩

theorem marks_exponent (exponent : Int) : ∀ c ∈ 'E' :: signedInteger exponent, IsMark c := by
  have sign : IsMark (if exponent < 0 then '-' else '+') := by
    split <;> exact .inr (by decide)
  exact List.forall_mem_cons.mpr ⟨.inr (by decide), List.forall_mem_cons.mpr
    ⟨sign, fun c member => .inl (isDigit_toDigits c member)⟩⟩

theorem layout_scientific (number : Decimal) :
    ∃ whole digits marked, Layout number whole digits marked
        ('E' :: signedInteger number.adjustedExponent) ∧
      number.scientific = whole ++ (marked ++ 'E' :: signedInteger number.adjustedExponent) := by
  obtain ⟨leading, fraction, written⟩ :=
    List.exists_cons_of_ne_nil (toDigits_ne_nil number.coefficient)
  have all : ∀ c ∈ leading :: fraction, c.isDigit = true := by
    rw [← written]
    exact isDigit_toDigits
  obtain ⟨leadingDigit, fractionDigits⟩ := List.forall_mem_cons.mp all
  have coefficient : numeralValue ([leading] ++ fraction) = number.coefficient := by
    rw [List.singleton_append, ← written, numeralValue_toDigits]
  have exponent : number.adjustedExponent = number.exponent + fraction.length := by
    unfold adjustedExponent digitCount
    rw [written, List.length_cons]
    omega
  have layout {marked : List Char} (pointed : Fraction fraction marked) :
      Layout number [leading] fraction marked ('E' :: signedInteger number.adjustedExponent) :=
    { fraction := pointed
      wholeDigits := List.forall_mem_singleton.mpr leadingDigit
      present := List.cons_ne_nil _ _
      fractionDigits := fractionDigits
      ends := endsDigits_exponent _
      tailMarks := marks_exponent _
      coefficient := coefficient
      exponent := by rw [readExponent_signedInteger, exponent] }
  unfold scientific digits
  rw [written]
  cases fraction with
  | nil => exact ⟨[leading], [], [], layout .none, rfl⟩
  | cons second rest => exact ⟨[leading], second :: rest, _, layout (.point _), rfl⟩

theorem layout_integral {number : Decimal} (integral : number.exponent = 0) :
    Layout number number.digits [] [] [] where
  fraction := .none
  wholeDigits := isDigit_toDigits
  present := toDigits_ne_nil _
  fractionDigits := nofun
  ends := nofun
  tailMarks := nofun
  coefficient := by
    rw [List.append_nil]
    exact numeralValue_toDigits _
  exponent := by
    rw [integral]
    rfl

/-- Digits of the coefficient with a point before some places, but behind the first digit. -/
theorem layout_pointed {number : Decimal} {filled : List Char} {places : Nat}
    (all : ∀ c ∈ filled, c.isDigit = true) (coefficient : numeralValue filled = number.coefficient)
    (exponent : number.exponent = -(places : Int)) (long : places < filled.length) :
    Layout number (filled.take (filled.length - places)) (filled.drop (filled.length - places))
      ('.' :: filled.drop (filled.length - places)) [] where
  fraction := .point _
  wholeDigits := fun c member => all c (List.mem_of_mem_take member)
  present := by
    rw [← List.length_pos_iff, List.length_take]
    omega
  fractionDigits := fun c member => all c (List.mem_of_mem_drop member)
  ends := nofun
  tailMarks := nofun
  coefficient := by rw [List.take_append_drop, coefficient]
  exponent := by
    rw [List.length_drop, exponent]
    show some 0 = _
    rw [Option.some.injEq]
    omega

theorem layout_plain {number : Decimal} (notPositive : number.exponent ≤ 0) :
    ∃ whole digits marked, Layout number whole digits marked [] ∧
      number.plain = whole ++ (marked ++ []) := by
  unfold plain
  by_cases integral : number.exponent = 0
  · rw [if_pos integral]
    exact ⟨number.digits, [], [], layout_integral integral, (List.append_nil _).symm⟩
  · rw [if_neg integral]
    unfold withPoint
    generalize zeros : (-number.exponent).toNat + 1 - number.digits.length = count
    have all : ∀ c ∈ List.replicate count '0' ++ number.digits, c.isDigit = true := by
      intro c member
      rcases List.mem_append.mp member with zero | digit
      · rw [List.eq_of_mem_replicate zero]
        decide
      · exact isDigit_toDigits c digit
    have coefficient :
        numeralValue (List.replicate count '0' ++ number.digits) = number.coefficient := by
      rw [numeralValue_zeros]
      exact numeralValue_toDigits _
    have exponent : number.exponent = -((-number.exponent).toNat : Int) := by
      omega
    -- The zeros leave a digit in front of the point, however many places there are.
    have long : (-number.exponent).toNat < (List.replicate count '0' ++ number.digits).length := by
      rw [List.length_append, List.length_replicate]
      omega
    exact ⟨_, _, _, layout_pointed all coefficient exponent long, by rw [List.append_nil]⟩

/-- A decimal is written with digits before the point in either notation. -/
theorem layout_write (number : Decimal) :
    ∃ whole digits marked tail, Layout number whole digits marked tail ∧
      number.write = (if number.negative then ['-'] else []) ++ (whole ++ (marked ++ tail)) := by
  unfold write
  by_cases isPlain : number.isPlain = true
  · have notPositive : number.exponent ≤ 0 := by
      simp only [Decimal.isPlain, Bool.and_eq_true, decide_eq_true_eq] at isPlain
      exact isPlain.1
    obtain ⟨whole, digits, marked, layout, written⟩ := layout_plain notPositive
    exact ⟨whole, digits, marked, [], layout, by rw [if_pos isPlain, written]⟩
  · obtain ⟨whole, digits, marked, layout, written⟩ := layout_scientific number
    exact ⟨whole, digits, marked, _, layout, by rw [if_neg isPlain, written]⟩

theorem write_marks (number : Decimal) : ∀ c ∈ number.write, IsMark c := by
  obtain ⟨whole, digits, marked, tail, layout, written⟩ := layout_write number
  have sign : ∀ c ∈ if number.negative then ['-'] else [], IsMark c := by
    split
    · exact List.forall_mem_singleton.mpr (.inr (by decide))
    · exact nofun
  rw [written]
  exact List.forall_mem_append.mpr ⟨sign, layout.marks⟩

theorem takeSign_write (number : Decimal) {whole digits marked tail : List Char}
    (layout : Layout number whole digits marked tail) :
    takeSign ((if number.negative then ['-'] else []) ++ (whole ++ (marked ++ tail))) =
      (number.negative, whole ++ (marked ++ tail)) := by
  cases number.negative with
  | true => rfl
  | false =>
      show takeSign (whole ++ (marked ++ tail)) = _
      exact takeSign_digits _ layout.wholeDigits layout.present

/-- The text of a decimal is read as this decimal. -/
theorem read_write {number : Decimal} (representable : number.isRepresentable = true) :
    ExtendedDecimal.read number.write = some (.finite number) := by
  have kept : (trim isSpace number.write).filter (· != '_') = number.write := by
    rw [trim_of_none fun c member => (write_marks number c member).apart.1, List.filter_eq_self]
    intro c member
    simpa using (write_marks number c member).apart.2
  obtain ⟨whole, digits, marked, tail, layout, written⟩ := layout_write number
  unfold ExtendedDecimal.read
  rw [kept, written, takeSign_write number layout]
  simp only [readFinite_layout representable layout]
  rfl

end Decimal

end SlotLogic
