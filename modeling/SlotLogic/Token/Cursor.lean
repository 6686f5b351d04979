import SlotLogic.Token.Basic

/-!
Contract: a movable place in a text from which tokens are taken on demand.

Owns: the cursor, its two ways to move, and the list of all tokens of a text.

Taking a token first passes the blanks before it and then the token. A token
that is undefined, and a numeral too long to convert, are not passed: the cursor
stays at their first character, with the blanks before them behind it. A move to
a place moves only to places before the end of the text; a move to any other
place leaves the cursor where it is.

Does not own: which characters form a token.
-/

set_option autoImplicit false

namespace SlotLogic

open SlotLogic.Text

/-- A place in a text, counted in characters from its start. -/
structure Cursor where
  text : List Char
  position : Nat
deriving DecidableEq, Repr

namespace Cursor

def atStart (text : List Char) : Cursor :=
  ⟨text, 0⟩

def remaining (cursor : Cursor) : List Char :=
  cursor.text.drop cursor.position

/-- Move to a place before the end of the text; other targets are ignored. -/
def moveTo (cursor : Cursor) (target : Int) : Cursor :=
  if 0 ≤ target ∧ target < cursor.text.length then { cursor with position := target.toNat }
  else cursor

def skipBlanks (cursor : Cursor) : Cursor :=
  { cursor with position := cursor.position + (cursor.remaining.takeWhile isBlank).length }

/-- Take the next token, and the cursor that is left. -/
def next (cursor : Cursor) : Except OverlongNumeral Token × Cursor :=
  let here := cursor.skipBlanks
  match scan here.remaining with
  | .error numeral => (.error numeral, here)
  | .ok lexeme =>
    let token : Token := ⟨lexeme.kind, lexeme.text, here.position⟩
    (.ok token,
      if token.kind = .undefined then here else { here with position := token.stop })

/-- The tokens from a cursor up to the first final one. The bound is a number of
characters that are left at most; with none left, the end of the text is the
only token. -/
def tokensWithin : Nat → Cursor → Except OverlongNumeral (List Token)
  | 0, cursor => cursor.next.1.map fun token => [token]
  | bound + 1, cursor =>
    match cursor.next with
    | (.error numeral, _) => .error numeral
    | (.ok token, later) =>
      if token.kind.isFinal then .ok [token]
      else (tokensWithin bound later).map fun tokens => token :: tokens

end Cursor

/-- The tokens of a text up to and including the first final one. -/
def tokensOf (text : List Char) : Except OverlongNumeral (List Token) :=
  (Cursor.atStart text).tokensWithin text.length

end SlotLogic
