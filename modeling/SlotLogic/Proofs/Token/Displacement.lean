import SlotLogic.Proofs.Token.Reading

/-!
Contract: tokens are taken from what is left of a text, and what stands in front of it only
shifts their places.

Owns: a cursor and a token behind further characters, and the moves of such a cursor.

A move to a place compares that place with the length of the whole text. Both grow by the
characters in front, so a move that is ignored in one text is ignored in the other.

Does not own: the rules that take tokens.
-/

set_option autoImplicit false

namespace SlotLogic

open SlotLogic.Text

variable (front : List Char)

/-- The same token behind further characters. -/
def Token.behind (token : Token) : Token :=
  { token with start := token.start + front.length }

namespace Cursor

/-- The same place behind further characters. -/
def behind (cursor : Cursor) : Cursor :=
  ⟨front ++ cursor.text, cursor.position + front.length⟩

/-- A place in a text is the start of what is left there, behind what was passed. -/
theorem behind_of_within {text : List Char} {place : Nat} (within : place ≤ text.length) :
    (atStart (text.drop place)).behind (text.take place) = ⟨text, place⟩ := by
  have passed : (text.take place).length = place := List.length_take_of_le within
  show (⟨text.take place ++ text.drop place, 0 + (text.take place).length⟩ : Cursor) = _
  rw [List.take_append_drop, passed, Nat.zero_add]

theorem remaining_behind_front (cursor : Cursor) :
    (cursor.behind front).remaining = cursor.remaining := by
  show (front ++ cursor.text).drop (cursor.position + front.length) = cursor.text.drop _
  rw [Nat.add_comm, List.drop_length_add_append]

theorem moveTo_behind (cursor : Cursor) (target : Nat) :
    (cursor.behind front).moveTo ((target + front.length : Nat) : Int) =
      (cursor.moveTo target).behind front := by
  have length : (cursor.behind front).text.length = front.length + cursor.text.length :=
    List.length_append
  unfold moveTo
  by_cases inside : target < cursor.text.length
  · rw [if_pos (by omega), if_pos (by omega)]
    rfl
  · rw [if_neg (by omega), if_neg (by omega)]

theorem skipBlanks_behind (cursor : Cursor) :
    (cursor.behind front).skipBlanks = cursor.skipBlanks.behind front := by
  unfold skipBlanks
  rw [remaining_behind_front]
  show (⟨front ++ cursor.text, cursor.position + front.length + _⟩ : Cursor) =
    ⟨front ++ cursor.text, cursor.position + _ + front.length⟩
  rw [Nat.add_right_comm]

/-- The same token is taken behind further characters. -/
theorem next_behind (cursor : Cursor) :
    (cursor.behind front).next =
      (cursor.next.1.map (Token.behind front), cursor.next.2.behind front) := by
  have left : (cursor.behind front).skipBlanks.remaining = cursor.skipBlanks.remaining := by
    rw [skipBlanks_behind, remaining_behind_front]
  cases scanned : scan cursor.skipBlanks.remaining with
  | error numeral =>
      rw [next_of_overlong scanned, next_of_overlong (left ▸ scanned), skipBlanks_behind]
      rfl
  | ok lexeme =>
      rw [next_of_scan scanned, next_of_scan (left ▸ scanned), skipBlanks_behind]
      refine Prod.ext rfl ?_
      show (if lexeme.kind = .undefined then _ else _) =
        (if lexeme.kind = .undefined then _ else _ : Cursor).behind front
      split
      · rfl
      · exact congrArg (Cursor.mk _) (Nat.add_right_comm ..)

end Cursor

end SlotLogic
