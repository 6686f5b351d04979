import SlotLogic.CommandLine.Request
import SlotLogic.Proofs.Decimal.RoundTrip
import SlotLogic.Proofs.Value.Assignment

/-!
Contract: every value can be typed for a slot as it is printed.

Owns: the text that a value is typed as, the parts of the text of a slot, and the datum that a
typed value becomes.

An index holds no equals sign, so the text of a slot is split behind the index. A decimal is no
keyword: no letter that a keyword starts with is written in it, in whatever case.

Does not own: how the text of a slot reaches the reader.
-/

set_option autoImplicit false

namespace SlotLogic

open SlotLogic.Text

/-! ## Typed values -/

/-- The text that a value is typed as: a keyword, or the printed number without its sort. -/
def Value.typed : Value → List Char
  | .null => ['n', 'u', 'l', 'l']
  | .bool true => ['t', 'r', 'u', 'e']
  | .bool false => ['f', 'a', 'l', 's', 'e']
  | .number decimal => (Value.number decimal).line.toList.drop "Number: ".length

/-- A value is in range if it is no number, or a number with an exponent that can be held. -/
def Value.InRange : Value → Prop
  | .null | .bool _ => True
  | .number decimal => decimal.isRepresentable = true

theorem Value.typed_number (decimal : Decimal) : (Value.number decimal).typed = decimal.write := by
  have printed : (Value.number decimal).line.toList = "Number: ".toList ++ decimal.write := by
    rw [Value.line, String.toList_append, Decimal.toString]
    exact congrArg ("Number: ".toList ++ ·) String.toList_ofList
  rw [Value.typed, printed]
  exact List.drop_left

/-! ## The text of a slot -/

namespace CommandLine

theorem splitAtEquals_append {name : List Char} (text : List Char) (without : '=' ∉ name) :
    splitAtEquals (name ++ '=' :: text) = (name, some text) := by
  have kept : ∀ c ∈ name, (c != '=') = true := by
    intro c member
    rw [bne_iff_ne]
    rintro rfl
    exact without member
  unfold splitAtEquals
  rw [List.dropWhile_append_of_pos kept, List.takeWhile_append_of_pos kept]
  show (name ++ [], some text) = _
  rw [List.append_nil]

theorem equals_notMem_writeInteger (number : Int) : '=' ∉ writeInteger number := by
  intro member
  rcases List.mem_append.mp member with sign | digit
  · split at sign <;> simp at sign
  · exact absurd (isDigit_toDigits _ digit) (by decide)

/-- The index of a slot is short enough to be read. -/
theorem readInteger_index {index : Nat} (within : index ≤ greatestIndex) :
    readInteger (writeInteger index) = .ok (index : Int) := by
  apply readInteger_writeInteger
  have short : (Nat.toDigits 10 index).length ≤ 3 := by
    rw [Nat.length_toDigits_le_iff (by decide) (by decide)]
    exact Nat.lt_of_le_of_lt within (by decide)
  exact Nat.le_trans short (by decide)

theorem readSlot_index {index : Nat} (within : index ≤ greatestIndex) (text : List Char) :
    readSlot (writeInteger index ++ '=' :: text) = .ok ((index : Int), slotDatum text) := by
  unfold readSlot
  rw [splitAtEquals_append text (equals_notMem_writeInteger index)]
  simp only [readInteger_index within]

/-! ## Numbers and keywords -/

/-- No written decimal has a letter that a keyword starts with. -/
theorem toLower_ne_of_mark {c : Char} (mark : Decimal.IsMark c) :
    c.toLower ≠ 'n' ∧ c.toLower ≠ 't' ∧ c.toLower ≠ 'f' := by
  rcases mark with digit | rfl | rfl | rfl | rfl
  · have bounds := digit_bounds digit
    have kept : c.toLower = c := by
      unfold Char.toLower
      rw [dif_neg]
      rintro ⟨letter, -⟩
      have least : 65 ≤ c.toNat := letter
      omega
    rw [kept]
    refine ⟨?_, ?_, ?_⟩ <;>
      · rintro rfl
        exact absurd bounds (by decide)
  all_goals decide

theorem slotDatum_write (number : Decimal) :
    slotDatum number.write = .text (String.ofList number.write) := by
  have marks := number.write_marks
  have apart {letter : Char} (rest : List Char)
      (never : ∀ c, Decimal.IsMark c → c.toLower ≠ letter) :
      number.write.map Char.toLower ≠ letter :: rest := by
    intro keyword
    have first : letter ∈ number.write.map Char.toLower := by
      rw [keyword]
      exact List.mem_cons_self
    obtain ⟨c, member, lower⟩ := List.mem_map.mp first
    exact never c (marks c member) lower
  unfold slotDatum
  rw [trim_of_none fun c member => (marks c member).apart.1]
  simp only [apart _ fun c mark => (toLower_ne_of_mark mark).1,
    apart _ fun c mark => (toLower_ne_of_mark mark).2.1,
    apart _ fun c mark => (toLower_ne_of_mark mark).2.2, if_false]

/-- A typed value becomes a datum that gives the value. -/
theorem toValue_slotDatum {value : Value} (inRange : value.InRange) :
    (slotDatum value.typed).toValue = .ok value := by
  cases value with
  | null => rfl
  | bool flag => cases flag <;> rfl
  | number decimal =>
      rw [Value.typed_number, slotDatum_write, Datum.toValue_text, String.toList_ofList,
        Decimal.read_write inRange]

/-- A slot that is typed as its index, an equals sign and its printed value is read, and an
assignment of what is read holds the value at the index and nothing else. A number keeps its sign,
its coefficient and its exponent. -/
theorem printed_value_is_held {index : Nat} (within : index ≤ greatestIndex) {value : Value}
    (inRange : value.InRange) :
    ∃ slot, readSlot (writeInteger index ++ '=' :: value.typed) = .ok slot ∧
      Assignment.ofRow (.ofPairs [(.integer slot.1, slot.2)]) = .ok ⟨[(index, value)]⟩ := by
  refine ⟨_, readSlot_index within _, ofRow_ok_iff.mpr (.cons ?_ .nil)⟩
  exact ⟨rfl, within, toValue_slotDatum inRange⟩

/-- A zero with its sign and its places is held in the last slot. -/
theorem negative_zero_is_held :
    255 ≤ greatestIndex ∧ (Value.number ⟨true, 0, -9⟩).InRange ∧
      writeInteger 255 ++ '=' :: (Value.number ⟨true, 0, -9⟩).typed = "255=-0E-9".toList ∧
      ∃ slot, readSlot "255=-0E-9".toList = .ok slot ∧
        Assignment.ofRow (.ofPairs [(.integer slot.1, slot.2)]) =
          .ok ⟨[(255, .number ⟨true, 0, -9⟩)]⟩ := by
  have inRange : (Value.number ⟨true, 0, -9⟩).InRange := by
    show Decimal.isRepresentable _ = true
    decide
  have within : 255 ≤ greatestIndex := by decide
  have text : writeInteger 255 ++ '=' :: (Value.number ⟨true, 0, -9⟩).typed =
      "255=-0E-9".toList := by
    rw [Value.typed_number]
    rfl
  refine ⟨within, inRange, text, ?_⟩
  rw [← text]
  exact printed_value_is_held within inRange

end CommandLine

end SlotLogic
