import SlotLogic.Text.Integer

/-!
Contract: the tokens of a statement and how one is cut off the front of a text.

Owns: the kinds of tokens, the thirteen literals, numerals of slot indices,
the token itself, and the scan of the characters at a cursor.

The literals are tried in order on a window of the next four characters, which
blanks fill up near the end of the text. They match by their characters alone, so
no blank needs to follow a word. A numeral starts with a digit other than zero
and takes every ASCII digit that follows; it names a slot up to the greatest
index, is undefined beyond it, and is not converted at all past the digit limit.
Any other character is undefined by itself.

Does not own: blanks between tokens, or the position of a token.
-/

set_option autoImplicit false

namespace SlotLogic

open SlotLogic.Text

/-- The kinds of tokens. `endOfText` stands after the last character, and
`undefined` for characters that start no other token. -/
inductive Kind where
  | nullWord
  | andWord
  | ifWord
  | orWord
  | le
  | ge
  | ne
  | eq
  | lt
  | gt
  | semicolon
  | openParen
  | closeParen
  | number
  | endOfText
  | undefined
deriving DecidableEq, Repr

namespace Kind

def all : List Kind :=
  [nullWord, andWord, ifWord, orWord, le, ge, ne, eq, lt, gt, semicolon, openParen, closeParen,
    number, endOfText, undefined]

def name : Kind → String
  | nullWord => "NULL"
  | andWord => "AND"
  | ifWord => "IF"
  | orWord => "OR"
  | le => "LE"
  | ge => "GE"
  | ne => "NQ"
  | eq => "EQ"
  | lt => "LT"
  | gt => "GT"
  | semicolon => "SEMI"
  | openParen => "LPAREN"
  | closeParen => "RPAREN"
  | number => "NUMBER"
  | endOfText => "EOF"
  | undefined => "UNDEF"

/-- Whether no token follows a token of this kind. -/
def isFinal : Kind → Bool
  | endOfText | undefined => true
  | _ => false

end Kind

/-- The greatest index of a slot that a statement can name. -/
def greatestIndex : Nat := 255

/-- A literal: its characters and its kind. -/
structure Literal where
  text : List Char
  kind : Kind
deriving DecidableEq, Repr

/-- The literals in the order in which they are tried. None stands before a longer
one that it begins. -/
def literals : List Literal :=
  [⟨['n', 'u', 'l', 'l'], .nullWord⟩,
    ⟨['a', 'n', 'd'], .andWord⟩,
    ⟨['i', 'f'], .ifWord⟩,
    ⟨['o', 'r'], .orWord⟩,
    ⟨['<', '='], .le⟩,
    ⟨['>', '='], .ge⟩,
    ⟨['<', '>'], .ne⟩,
    ⟨['='], .eq⟩,
    ⟨['<'], .lt⟩,
    ⟨['>'], .gt⟩,
    ⟨[';'], .semicolon⟩,
    ⟨['('], .openParen⟩,
    ⟨[')'], .closeParen⟩]

/-- An ASCII digit other than zero. -/
def isLeadingDigit (c : Char) : Bool :=
  c.isDigit && c != '0'

def numeralValue (digits : List Char) : Nat :=
  digitsValue (digits.map fun c => c.toNat - '0'.toNat)

/-- The characters of a token with the kind they have. -/
structure Lexeme where
  kind : Kind
  text : List Char
deriving DecidableEq, Repr

/-- The lexeme of a maximal digit string. -/
def numeralLexeme (digits : List Char) : Except OverlongNumeral Lexeme :=
  if digitLimit < digits.length then .error ⟨digits.length⟩
  else if numeralValue digits ≤ greatestIndex then .ok ⟨.number, digits⟩
  else .ok ⟨.undefined, digits⟩

/-- The number of characters among which a literal is looked for. -/
def windowWidth : Nat := 4

/-- The first characters of a text, with blanks in the place of those that it does
not have. -/
def window (text : List Char) : List Char :=
  (text.take windowWidth).rightpad windowWidth ' '

/-- The lexeme at the front of a text that does not start with a blank. -/
def scan : List Char → Except OverlongNumeral Lexeme
  | [] => .ok ⟨.endOfText, []⟩
  | c :: rest =>
    match literals.find? fun literal => literal.text.isPrefixOf (window (c :: rest)) with
    | some literal => .ok ⟨literal.kind, literal.text⟩
    | none =>
      if isLeadingDigit c then numeralLexeme ((c :: rest).takeWhile Char.isDigit)
      else .ok ⟨.undefined, [c]⟩

/-- A token at its place in a text, counted in characters. -/
structure Token where
  kind : Kind
  text : List Char
  start : Nat
deriving DecidableEq, Repr

namespace Token

/-- The place after the last character of a token. -/
def stop (token : Token) : Nat :=
  token.start + token.text.length

/-- The index of the slot that a numeral names. -/
def index? (token : Token) : Option Nat :=
  if token.kind = .number then some (numeralValue token.text) else none

/-- A token as messages show it: a numeral by its index, a literal by its
characters, the final kinds by their name alone. -/
def description (token : Token) : String :=
  match token.index? with
  | some index => s!"{token.kind.name}({index})"
  | none =>
    if token.kind.isFinal then token.kind.name
    else s!"{token.kind.name}({String.ofList token.text})"

end Token

end SlotLogic
