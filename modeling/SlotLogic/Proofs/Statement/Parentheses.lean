import SlotLogic.Proofs.Tree.Words

/-!
Contract: of all texts of a statement tree the canonical one has the fewest parentheses.

Owns: the phrases in which a condition needs parentheses, the words of every derivation
against the words of its tree, and the comparison of an accepted text with the canonical
text of its tree.

A derivation has the words of its tree with more parentheses around some of them. It has
the needed ones, because a phrase in which a connective needs parentheses derives it in no
other way. The canonical text has no character beyond the words of its tree, so it is
read as exactly these.

Does not own: the reading of the canonical text back.
-/

set_option autoImplicit false

namespace SlotLogic

open SlotLogic.Text

/-! ## Tokens of a text -/

/-- Every token was taken somewhere, so it is spelled as its kind and index say. -/
def TakenFromText (tokens : List Token) : Prop :=
  ∀ token ∈ tokens, ∃ cursor : Cursor, cursor.next.1 = .ok token

variable {tokens : List Token} {token : Token}

theorem TakenFromText.left {others : List Token} (taken : TakenFromText (tokens ++ others)) :
    TakenFromText tokens :=
  fun token member => taken token (List.mem_append_left _ member)

theorem TakenFromText.right {others : List Token} (taken : TakenFromText (tokens ++ others)) :
    TakenFromText others :=
  fun token member => taken token (List.mem_append_right _ member)

theorem TakenFromText.tail (taken : TakenFromText (token :: tokens)) : TakenFromText tokens :=
  fun other member => taken other (List.mem_cons_of_mem _ member)

theorem TakenFromText.text_of_literal (literal : Literal)
    (taken : TakenFromText (token :: tokens)) (kind : token.kind = literal.kind)
    (member : literal ∈ literals := by decide) : token.text = literal.text := by
  obtain ⟨cursor, next⟩ := taken token (List.mem_cons_self ..)
  exact scan_text_of_literal (Cursor.scan_of_next next).1 member kind

theorem TakenFromText.text_of_index {index : Nat} (taken : TakenFromText (token :: tokens))
    (names : token.index? = some index) : token.text = writeInteger index := by
  obtain ⟨cursor, next⟩ := taken token (List.mem_cons_self ..)
  have number := Phrase.index?_kind names
  have written := scan_text_of_number (Cursor.scan_of_next next).1 number
  have value : numeralValue token.text = index := by
    rw [Token.index?, if_pos number] at names
    exact Option.some.inj names
  rw [value] at written
  exact written

/-! ## Words of derivations -/

namespace Phrase

/-- Whether a tree needs parentheses to be this phrase. -/
def encloses (phrase : Phrase) (expr : Expr) : Bool :=
  match phrase with
  | .conjunction => expr.isEnclosed .and .right
  | .chain operator => expr.isEnclosed operator .left
  | _ => false

/-- Right of a connective an operand needs the parentheses that are written there. -/
theorem operand_encloses (parent : Connective) (expr : Expr) :
    parent.operand.encloses expr = expr.isEnclosed parent .right := by
  cases parent with
  | and => rfl
  | or =>
      -- The operand is a chain of `and`, which a disjunction by itself is not.
      cases expr with
      | connect operator _ _ => cases operator <;> rfl
      | null | slot | compare | choose => rfl
      | foreign leaf => exact leaf.elim

/-- A condition needs no parentheses. -/
theorem condition_encloses (expr : Expr) : condition.encloses expr = false := by
  cases expr with
  | connect operator _ _ => cases operator <;> rfl
  | null | slot | compare | choose => rfl
  | foreign leaf => exact leaf.elim

/-- A chain needs no parentheses around a link of its own. -/
theorem chain_encloses_connect (operator : Connective) (left right : Expr) :
    (chain operator).encloses (.connect operator left right) = false := by
  cases operator <;> rfl

/-- A tree that needs parentheses in a chain needs them as its operand. -/
theorem encloses_operand {operator : Connective} {expr : Expr}
    (needed : (chain operator).encloses expr = true) :
    operator.operand.encloses expr = true := by
  cases operator with
  | and =>
      cases expr with
      | connect operator _ _ =>
          cases operator with
          | and => cases needed
          | or => rfl
      | null | slot | compare | choose => cases needed
      | foreign leaf => exact leaf.elim
  | or =>
      rw [condition_encloses] at needed
      cases needed

/-- The words of a derivation thin to the words of its tree, in parentheses where the phrase
needs them. -/
theorem Derives.thinsTo {phrase : Phrase} {expr : Expr} (derives : phrase.Derives tokens expr)
    (taken : TakenFromText tokens) :
    ThinsTo (tokens.map Token.text) (encloseWords (phrase.encloses expr) expr.words) := by
  induction derives with
  | null kind =>
      rw [List.map_singleton, taken.text_of_literal ⟨['n', 'u', 'l', 'l'], .nullWord⟩ kind]
      exact .refl _
  | numeral names =>
      rw [List.map_singleton, taken.text_of_index names]
      exact .refl _
  | @comparison _ _ _ _ _ operator _ kind _ first second =>
      have sign := taken.right.text_of_literal ⟨operator.spelling, operator.kind⟩ kind
        (literal_of_comparison operator)
      rw [List.map_append, List.map_cons, sign]
      exact (first taken.left).append (.keep _ (second taken.right.tail))
  | compared inner inductionHypothesis =>
      cases inner with
      | comparison => exact inductionHypothesis taken
  | enclosed openKind _ closeKind inductionHypothesis =>
      have opening := taken.text_of_literal ⟨openWord, .openParen⟩ openKind
      have closing := taken.tail.right.text_of_literal ⟨closeWord, .closeParen⟩ closeKind
      have inner := inductionHypothesis taken.tail.left
      rw [condition_encloses] at inner
      rw [List.map_cons, List.map_append, List.map_singleton, opening, closing]
      exact inner.enclosed _
  | single _ inductionHypothesis =>
      exact (inductionHypothesis taken).encloseWords_of_imp encloses_operand
  | @link operator _ _ _ _ _ _ kind _ first second =>
      have word := taken.right.text_of_literal ⟨operator.word, operator.kind⟩ kind
        (literal_of_connective operator)
      have rightThins := second taken.right.tail
      rw [operand_encloses] at rightThins
      rw [List.map_append, List.map_cons, word, chain_encloses_connect]
      exact (first taken.left).append (.keep _ rightThins)
  | plain _ inductionHypothesis => exact inductionHypothesis taken
  | nested _ inductionHypothesis => exact inductionHypothesis taken
  | ifExpression wordKind openKind _ firstKind _ secondKind _ closeKind test thenBranch
      elseBranch =>
      have behindOpen := taken.tail.tail
      have behindFirst := behindOpen.right.tail
      have behindSecond := behindFirst.right.tail
      have testThins := test behindOpen.left
      rw [condition_encloses] at testThins
      simp only [List.map_cons, List.map_append,
        taken.text_of_literal ⟨['i', 'f'], .ifWord⟩ wordKind,
        taken.tail.text_of_literal ⟨openWord, .openParen⟩ openKind,
        behindOpen.right.text_of_literal ⟨[';'], .semicolon⟩ firstKind,
        behindFirst.right.text_of_literal ⟨[';'], .semicolon⟩ secondKind,
        behindSecond.right.text_of_literal ⟨closeWord, .closeParen⟩ closeKind]
      exact .keep _ (.keep _ (testThins.append (.keep _ ((thenBranch behindFirst.left).append
        (.keep _ ((elseBranch behindSecond.left).append (.refl [closeWord])))))))
  | statement _ inductionHypothesis => exact inductionHypothesis taken

end Phrase

/-! ## The words of an accepted text -/

variable {text : List Char} {expr : Expr}

/-- An accepted text is its words with blanks between them, and they thin to the words of
its tree. -/
theorem words_of_parse (accepted : parse false text = .ok expr) :
    ∃ tokens final, tokensOf text = .ok (tokens ++ [final]) ∧ final.text = [] ∧
      solid text = (tokens.map Token.text).flatten ∧
      ThinsTo (tokens.map Token.text) expr.words := by
  obtain ⟨tokens, final, finish, reads, ends, derives⟩ := reads_of_parse accepted
  obtain ⟨middle, body, last⟩ := reads.split
  obtain _ | ⟨taken, -⟩ := last
  have blank := Cursor.next_endOfText_iff.mp ⟨final, taken, ends⟩
  have characters := body.solid derives.passes
  rw [solid_of_blank blank, List.append_nil] at characters
  exact ⟨tokens, final, tokensOf_of_reads reads ends derives,
    scan_text_of_end (Cursor.scan_of_next taken).1 ends, characters,
    derives.thinsTo body.taken_of_mem⟩

/-- The words of the canonical text are the words of its tree: no character is left for
a parenthesis that would be dropped. -/
theorem words_of_canonical (isStatement : expr.isStatement = true) :
    ∃ tokens final, tokensOf expr.text = .ok (tokens ++ [final]) ∧ final.text = [] ∧
      tokens.map Token.text = expr.words := by
  obtain ⟨tokens, final, listed, empty, characters, thins⟩ :=
    words_of_parse (parse_text false isStatement)
  rw [expr.solid_text] at characters
  exact ⟨tokens, final, listed, empty, thins.eq_of_length_le (by rw [characters])⟩

/-- The canonical text of a tree that is read has the fewest parentheses: it is read as
this tree, and the words of every text that is read as this tree are its words with some
more parentheses. So no such text has fewer tokens, and two of them differ in blanks and in
parentheses that can be dropped alone. -/
theorem text_has_fewest_parentheses (text : List Char) (expr : Expr)
    (accepted : parse false text = .ok expr) :
    expr.source = .ok expr.text ∧
    ∃ canonical, tokensOf expr.text = .ok canonical ∧ parse false expr.text = .ok expr ∧
      ∀ other, parse false other = .ok expr →
        ∃ tokens, tokensOf other = .ok tokens ∧
          ThinsTo (tokens.map Token.text) (canonical.map Token.text) ∧
          canonical.length ≤ tokens.length ∧
          solid other = (tokens.map Token.text).flatten := by
  have isStatement := isStatement_of_parse accepted
  obtain ⟨least, last, leastListed, leastEmpty, words⟩ := words_of_canonical isStatement
  refine ⟨Expr.source_of_isStatement isStatement, least ++ [last], leastListed,
    parse_text false isStatement, ?_⟩
  intro other otherAccepted
  obtain ⟨tokens, final, listed, empty, characters, thins⟩ := words_of_parse otherAccepted
  have whole : ThinsTo ((tokens ++ [final]).map Token.text) ((least ++ [last]).map Token.text) := by
    rw [List.map_append, List.map_append, List.map_singleton, List.map_singleton, words, empty,
      leastEmpty]
    exact thins.append (.refl [[]])
  refine ⟨tokens ++ [final], listed, whole, ?_, ?_⟩
  · have fewer := whole.sublist.length_le
    rw [List.length_map, List.length_map] at fewer
    exact fewer
  · rw [List.map_append, List.flatten_append, List.map_singleton, List.flatten_singleton, empty,
      List.append_nil]
    exact characters

/-- Of five pairs around conditions the canonical text keeps one, to the right of an
`or`. -/
theorem doubled_parentheses_drop :
    parse false "if(((1=2)or((3<4 or(5>6))));7;null)".toList =
        parse false "if(1=2 or (3<4 or 5>6);7;null)".toList ∧
      ∃ canonical tokens,
        tokensOf "if(1=2 or (3<4 or 5>6);7;null)".toList = .ok canonical ∧
        tokensOf "if(((1=2)or((3<4 or(5>6))));7;null)".toList = .ok tokens ∧
        ThinsTo (tokens.map Token.text) (canonical.map Token.text) ∧
        canonical.length + 8 = tokens.length := by
  have accepted : parse false "if(((1=2)or((3<4 or(5>6))));7;null)".toList =
      .ok (.choose
        (.connect .or (.compare .eq (.slot 1) (.slot 2))
          (.connect .or (.compare .lt (.slot 3) (.slot 4)) (.compare .gt (.slot 5) (.slot 6))))
        (.slot 7) .null) := by
    rfl
  obtain ⟨-, canonical, canonicalListed, again, fewest⟩ := text_has_fewest_parentheses _ _ accepted
  obtain ⟨tokens, listed, thins, -, -⟩ := fewest _ accepted
  refine ⟨accepted.trans again.symm, canonical, tokens, canonicalListed, listed, thins, ?_⟩
  cases canonicalListed
  cases listed
  rfl

end SlotLogic
