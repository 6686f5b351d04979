import SlotLogic.Proofs.Token.Cut

/-!
Contract: blanks that are put between the tokens of a text change none of its tokens but
their places.

Owns: texts with blanks put in, the places of their characters, cursors that keep step in
both texts, and the token list of a text with blanks put in.

A literal and a numeral have no blank in them, so no token grows or is cut by blanks that
stand outside of it. A cursor behind a token may stand in front of blanks that were put in
there. So two cursors keep step if nothing but blanks stands between the one and the place
of the other; the next token of both is then the same, and they keep step behind it.

Does not own: what is read from the tokens.
-/

set_option autoImplicit false

namespace SlotLogic

open SlotLogic.Text

/-- Blanks to be put into a text in front of the character at each place, and at its end. -/
structure Spacing where
  blanks : Nat → List Char
  blank : ∀ place, ∀ c ∈ blanks place, isBlank c = true

namespace Spacing

variable (spacing : Spacing)

/-- The characters from a place on, with blanks put in behind each of them. -/
def spread : Nat → List Char → List Char
  | _, [] => []
  | place, c :: rest => c :: (spacing.blanks (place + 1) ++ spread (place + 1) rest)

/-- A text with all blanks put in. -/
def apply (text : List Char) : List Char :=
  spacing.blanks 0 ++ spacing.spread 0 text

/-- The place of a character after the blanks in front of it are put in. -/
def place (text : List Char) (before : Nat) : Nat :=
  (spacing.apply (text.take before)).length

/-- A token at its new place. -/
def token (text : List Char) (token : Token) : Token :=
  { token with start := spacing.place text token.start }

/-- No blank is put in between the characters of a token. -/
def Spares (token : Token) : Prop :=
  ∀ place < token.stop, token.start < place → spacing.blanks place = []

instance (token : Token) : Decidable (spacing.Spares token) :=
  inferInstanceAs
    (Decidable (∀ place < token.stop, token.start < place → spacing.blanks place = []))

/-! ## Texts with blanks put in -/

theorem spread_append (place : Nat) (first second : List Char) :
    spacing.spread place (first ++ second) =
      spacing.spread place first ++ spacing.spread (place + first.length) second := by
  induction first generalizing place with
  | nil => rfl
  | cons c rest inductionHypothesis =>
      rw [List.cons_append, spread, spread, inductionHypothesis, List.cons_append,
        List.append_assoc, List.length_cons, Nat.add_assoc, Nat.add_comm 1]

theorem head?_spread (place : Nat) (text : List Char) :
    (spacing.spread place text).head? = text.head? := by
  cases text with
  | nil => rfl
  | cons c rest => rfl

theorem spread_blank {place : Nat} {text : List Char} (blank : ∀ c ∈ text, isBlank c = true) :
    ∀ c ∈ spacing.spread place text, isBlank c = true := by
  induction text generalizing place with
  | nil => simp [spread]
  | cons first rest inductionHypothesis =>
      intro c member
      rw [spread, List.mem_cons, List.mem_append] at member
      rcases member with rfl | inserted | later
      · exact blank c (List.mem_cons_self ..)
      · exact spacing.blank _ c inserted
      · exact inductionHypothesis (fun c member => blank c (List.mem_cons_of_mem _ member)) c later

/-- Where no blank is put into a word, it stays as it is, with blanks behind it. -/
theorem spread_word {place : Nat} {word : List Char} (rest : List Char)
    (unbroken : ∀ inner < place + word.length, place < inner → spacing.blanks inner = []) :
    ∃ gap, (∀ c ∈ gap, isBlank c = true) ∧
      spacing.spread place (word ++ rest) =
        word ++ (gap ++ spacing.spread (place + word.length) rest) := by
  induction word generalizing place with
  | nil => exact ⟨[], by simp, rfl⟩
  | cons c more inductionHypothesis =>
      rw [List.length_cons] at unbroken ⊢
      cases more with
      | nil => exact ⟨spacing.blanks (place + 1), spacing.blank _, rfl⟩
      | cons next others =>
          have whole : place + 1 + (next :: others).length =
              place + ((next :: others).length + 1) := by omega
          have later : ∀ inner < place + 1 + (next :: others).length, place + 1 < inner →
              spacing.blanks inner = [] := fun inner before behind =>
            unbroken inner (by omega) (by omega)
          obtain ⟨gap, blank, same⟩ := inductionHypothesis later
          have nothing : spacing.blanks (place + 1) = [] :=
            unbroken (place + 1) (by rw [List.length_cons]; omega) (by omega)
          refine ⟨gap, blank, ?_⟩
          rw [List.cons_append, spread, nothing, List.nil_append, same, whole]
          rfl

/-- A word without blanks that begins a text with blanks put in begins the text itself. -/
theorem prefix_of_spread {place : Nat} {word text : List Char}
    (solid : ∀ c ∈ word, isBlank c = false) (begins : word <+: spacing.spread place text) :
    word <+: text := by
  induction word generalizing place text with
  | nil => exact List.nil_prefix
  | cons c more inductionHypothesis =>
      cases text with
      | nil => exact absurd (List.prefix_nil.mp begins) (List.cons_ne_nil c more)
      | cons first rest =>
          obtain ⟨rfl, onward⟩ := List.cons_prefix_cons.mp begins
          have solidMore : ∀ c ∈ more, isBlank c = false := fun c member =>
            solid c (List.mem_cons_of_mem _ member)
          apply List.cons_prefix_cons.mpr ⟨rfl, ?_⟩
          cases more with
          | nil => exact List.nil_prefix
          | cons next others =>
              -- A blank that was put in here would be a character of the word.
              cases gap : spacing.blanks (place + 1) with
              | nil =>
                  rw [gap] at onward
                  exact inductionHypothesis solidMore onward
              | cons blank blanks =>
                  rw [gap] at onward
                  obtain ⟨rfl, -⟩ := List.cons_prefix_cons.mp onward
                  have isBlank := spacing.blank (place + 1) next (by rw [gap]; simp)
                  rw [solidMore next (List.mem_cons_self ..)] at isBlank
                  cases isBlank

theorem apply_append (first second : List Char) :
    spacing.apply (first ++ second) =
      spacing.apply first ++ spacing.spread first.length second := by
  rw [apply, spread_append, ← List.append_assoc, Nat.zero_add]
  rfl

theorem apply_eq {text : List Char} {before : Nat} (within : before ≤ text.length) :
    spacing.apply text =
      spacing.apply (text.take before) ++ spacing.spread before (text.drop before) := by
  have length := List.length_take_of_le within
  rw [← congrArg (spacing.spread · (text.drop before)) length, ← apply_append,
    List.take_append_drop]

/-- Behind a new place stands what stood behind the old one, with blanks put in. -/
theorem length_apply {text : List Char} {before : Nat} (within : before ≤ text.length) :
    (spacing.apply text).length =
      spacing.place text before + (spacing.spread before (text.drop before)).length := by
  rw [spacing.apply_eq within, List.length_append]
  rfl

/-! ## The scan -/

variable {spacing}

/-- A numeral that ends in front of a text also ends in front of blanks and this text. -/
theorem endsNumeral_spread {gap rest : List Char} (place : Nat)
    (blank : ∀ c ∈ gap, isBlank c = true) (ends : EndsNumeral rest) :
    EndsNumeral (gap ++ spacing.spread place rest) := by
  cases gap with
  | nil =>
      intro head member
      rw [List.nil_append, head?_spread] at member
      exact ends head member
  | cons first others =>
      apply endsNumeral_cons
      rw [Bool.eq_false_iff]
      intro digit
      have solid := not_blank_of_digit digit
      rw [blank first (List.mem_cons_self ..)] at solid
      cases solid

/-- The digits in front of a text are the same with blanks put in behind them. -/
theorem takeWhile_spread {place : Nat} {text : List Char}
    (unbroken : ∀ inner < place + (text.takeWhile Char.isDigit).length, place < inner →
      spacing.blanks inner = []) :
    (spacing.spread place text).takeWhile Char.isDigit = text.takeWhile Char.isDigit := by
  obtain ⟨gap, blank, same⟩ := spacing.spread_word (text.dropWhile Char.isDigit) unbroken
  rw [List.takeWhile_append_dropWhile] at same
  rw [same]
  exact (endsNumeral_spread _ blank head?_dropWhile).takeWhile fun _ member =>
    List.mem_takeWhile_imp member

/-- No literal begins a text only because blanks are put in. -/
theorem literal_of_spread {place : Nat} {text : List Char} {literal : Literal}
    (member : literal ∈ literals) (begins : literal.text <+: spacing.spread place text) :
    literal.text <+: text := by
  have solid := List.any_eq_false.mp (literals_solid literal member)
  exact spacing.prefix_of_spread (fun c inside => Bool.eq_false_iff.mpr (solid c inside)) begins

/-- Blanks put in behind a lexeme do not change it. -/
theorem scan_spread {place : Nat} {text : List Char} {lexeme : Lexeme}
    (scanned : scan text = .ok lexeme)
    (unbroken : ∀ inner < place + lexeme.text.length, place < inner → spacing.blanks inner = []) :
    scan (spacing.spread place text) = .ok lexeme := by
  cases text with
  | nil => exact scanned
  | cons c more =>
      rcases scan_cons scanned with ⟨literal, found, rfl⟩ |
        ⟨none, ⟨leading, numeral⟩ | ⟨other, rfl⟩⟩
      · obtain ⟨member, ⟨rest, whole⟩, longest⟩ := find_literal_iff.mp found
        obtain ⟨gap, -, same⟩ := spacing.spread_word rest unbroken
        refine scan_of_find (find_literal_iff.mpr ⟨member, ?_, ?_⟩)
        · rw [← whole, same]
          exact List.prefix_append _ _
        · exact fun other otherMember begins =>
            longest other otherMember (literal_of_spread otherMember begins)
      · rw [(numeralLexeme_ok numeral).1] at unbroken
        have digits := takeWhile_spread unbroken
        rw [spread] at digits ⊢
        rw [scan_of_leading _ leading, digits]
        exact numeral
      · have unmatched : ∀ literal ∈ literals,
            ¬literal.text <+: spacing.spread place (c :: more) := fun literal member begins =>
          no_literal_iff.mp none literal member (literal_of_spread member begins)
        rw [spread] at unmatched ⊢
        rw [scan_of_cons, no_literal_iff.mpr unmatched]
        exact if_neg (by simp [other])

end Spacing

/-! ## Cursors that keep step -/

namespace Cursor

variable {spacing : Spacing} {cursor wide start finish : Cursor}

/-- Skipping blanks a second time stays. -/
theorem skipBlanks_skipBlanks (cursor : Cursor) :
    cursor.skipBlanks.skipBlanks = cursor.skipBlanks := by
  rw [skipBlanks, takeWhile_of_head? cursor.skipBlanks_stops]
  rfl

/-- Behind a word stands what is left behind it. -/
theorem remaining_behind {word rest : List Char} (here : cursor.remaining = word ++ rest) :
    (⟨cursor.text, cursor.position + word.length⟩ : Cursor).remaining = rest := by
  rw [remaining] at here ⊢
  rw [← List.drop_drop, here]
  exact List.drop_left

/-- A cursor in the text with blanks put in keeps step with a cursor in the text itself: it
stands at the new place of the other, or only blanks stand between. -/
structure KeepsStep (spacing : Spacing) (cursor wide : Cursor) : Prop where
  text : wide.text = spacing.apply cursor.text
  valid : cursor.Valid
  faces : wide.Faces (spacing.spread cursor.position cursor.remaining)
  within : wide.Valid

theorem keepsStep_start (spacing : Spacing) (text : List Char) :
    (atStart text).KeepsStep spacing (atStart (spacing.apply text)) where
  text := rfl
  valid := atStart_valid text
  faces := ⟨spacing.blanks 0, spacing.blank 0, rfl⟩
  within := atStart_valid _

namespace KeepsStep

theorem skipBlanks_remaining (keeps : cursor.KeepsStep spacing wide) :
    wide.skipBlanks.remaining =
      spacing.spread cursor.skipBlanks.position cursor.skipBlanks.remaining := by
  obtain ⟨gap, blank, faces⟩ := keeps.faces
  have passed : ∀ c ∈ cursor.remaining.takeWhile isBlank, isBlank c = true := fun c member =>
    List.mem_takeWhile_imp member
  have parts : spacing.spread cursor.position cursor.remaining =
      spacing.spread cursor.position (cursor.remaining.takeWhile isBlank) ++
        spacing.spread cursor.skipBlanks.position cursor.skipBlanks.remaining := by
    nth_rewrite 1 [← List.takeWhile_append_dropWhile (p := isBlank) (l := cursor.remaining)]
    rw [spacing.spread_append, ← Cursor.skipBlanks_remaining]
    rfl
  have stops := cursor.skipBlanks_stops
  rw [← spacing.head?_spread cursor.skipBlanks.position] at stops
  rw [Cursor.skipBlanks_remaining, faces, parts, List.dropWhile_append_of_pos blank,
    List.dropWhile_append_of_pos (spacing.spread_blank passed), dropWhile_of_head? stops]

/-- Where the blanks end the one cursor is at the new place of the other. -/
theorem skipBlanks_position (keeps : cursor.KeepsStep spacing wide) :
    wide.skipBlanks.position = spacing.place cursor.text cursor.skipBlanks.position := by
  have text : wide.skipBlanks.text = spacing.apply cursor.text := keeps.text
  have within : wide.skipBlanks.position ≤ wide.skipBlanks.text.length :=
    (skipBlanks_leads keeps.within).valid
  have left := congrArg List.length keeps.skipBlanks_remaining
  have whole : (spacing.apply cursor.text).length =
      spacing.place cursor.text cursor.skipBlanks.position +
        (spacing.spread cursor.skipBlanks.position cursor.skipBlanks.remaining).length :=
    spacing.length_apply (skipBlanks_leads keeps.valid).valid
  rw [text] at within
  rw [remaining_length, text] at left
  omega

theorem skipped (keeps : cursor.KeepsStep spacing wide) :
    cursor.skipBlanks.KeepsStep spacing wide.skipBlanks where
  text := keeps.text
  valid := (skipBlanks_leads keeps.valid).valid
  faces := faces_of_remaining keeps.skipBlanks_remaining
  within := (skipBlanks_leads keeps.within).valid

/-- Where the one cursor takes a token that is spared, the other takes it at its new place,
and they keep step behind it. -/
theorem next {token : Token} (keeps : cursor.KeepsStep spacing wide)
    (taken : cursor.next.1 = .ok token) (spares : spacing.Spares token) :
    wide.next.1 = .ok (spacing.token cursor.text token) ∧
      cursor.next.2.KeepsStep spacing wide.next.2 := by
  obtain ⟨scanned, start⟩ := scan_of_next taken
  have unbroken : ∀ inner < cursor.skipBlanks.position + token.text.length,
      cursor.skipBlanks.position < inner → spacing.blanks inner = [] := by
    rw [← start]
    exact spares
  have scannedWide : scan wide.skipBlanks.remaining = .ok ⟨token.kind, token.text⟩ := by
    rw [keeps.skipBlanks_remaining]
    exact Spacing.scan_spread scanned unbroken
  have valid := (next_leads keeps.valid).valid
  have within := (next_leads keeps.within).valid
  rw [next_of_scan scanned] at valid ⊢
  rw [next_of_scan scannedWide] at within ⊢
  refine ⟨?_, ?_⟩
  · rw [keeps.skipBlanks_position, ← start]
    rfl
  · by_cases undefined : token.kind = .undefined
    · simp only [if_pos undefined]
      exact keeps.skipped
    · simp only [if_neg undefined] at valid within ⊢
      obtain ⟨rest, whole⟩ : token.text <+: cursor.skipBlanks.remaining := scan_begins scanned
      obtain ⟨gap, blank, same⟩ := spacing.spread_word rest unbroken
      have here := keeps.skipBlanks_remaining
      rw [← whole, same] at here
      have behind : (⟨cursor.text, cursor.skipBlanks.position + token.text.length⟩ :
          Cursor).remaining = rest := remaining_behind whole.symm
      refine ⟨keeps.text, valid, ?_, within⟩
      rw [behind]
      exact ⟨gap, blank, remaining_behind here⟩

/-- Tokens that are read and spared are read at their new places. -/
theorem reads {tokens : List Token} (keeps : start.KeepsStep spacing wide)
    (reads : start.Reads tokens finish) (spares : ∀ token ∈ tokens, spacing.Spares token) :
    ∃ finish', wide.Reads (tokens.map (spacing.token start.text)) finish' ∧
      finish.KeepsStep spacing finish' := by
  induction reads generalizing wide with
  | nil => exact ⟨wide, .nil wide, keeps⟩
  | @cons start _ token tokens taken _ inductionHypothesis =>
      obtain ⟨takenWide, onward⟩ := keeps.next taken (spares token (List.mem_cons_self ..))
      obtain ⟨finish', later, arrives⟩ := inductionHypothesis onward fun other member =>
        spares other (List.mem_cons_of_mem _ member)
      rw [(next_leads keeps.valid).text] at later
      exact ⟨finish', .cons takenWide later, arrives⟩

end KeepsStep

/-! ## The tokens of a text -/

/-- A final token is taken again and again. -/
theorem next_again {token : Token} (taken : cursor.next.1 = .ok token)
    (final : token.kind.isFinal = true) : cursor.next.2.next = (.ok token, cursor.next.2) := by
  have stays : cursor.next.2 = cursor.skipBlanks := by
    obtain ⟨scanned, -⟩ := scan_of_next taken
    rw [next_of_scan scanned]
    split
    · rfl
    · rename_i defined
      have ends : token.kind = .endOfText := by
        cases kind : token.kind <;> simp_all [Kind.isFinal]
      have empty : token.text = [] := scan_text_of_end scanned ends
      simp only [empty]
      rfl
  have again : cursor.skipBlanks.next = cursor.next := by
    rw [Cursor.next, Cursor.next, skipBlanks_skipBlanks]
  rw [stays, again, ← stays, ← taken]

/-- Behind a final token nothing else is read. -/
theorem Reads.again {token : Token} {tokens : List Token} (reads : start.Reads tokens finish)
    (same : start.next = (.ok token, start)) :
    (∀ other ∈ tokens, other = token) ∧ finish = start := by
  induction reads with
  | nil => exact ⟨by simp, rfl⟩
  | @cons start finish other tokens taken _ inductionHypothesis =>
      rw [same] at taken inductionHypothesis
      cases taken
      obtain ⟨others, stays⟩ := inductionHypothesis same
      exact ⟨List.forall_mem_cons.mpr ⟨rfl, others⟩, stays⟩

end Cursor

/-- Whatever is read from the start of a text is in its token list, and so is what is read
next. -/
theorem listed_of_reads {text : List Char} {tokens read : List Token} {later : Cursor}
    (listed : tokensOf text = .ok tokens) (reads : (Cursor.atStart text).Reads read later) :
    (∀ token ∈ read, token ∈ tokens) ∧ ∃ token ∈ tokens, later.next.1 = .ok token := by
  obtain ⟨earlier, final, finish, rfl, whole, -, ends⟩ :=
    Cursor.split_of_tokensWithin (Cursor.atStart_valid text) (Nat.le_refl _) listed
  obtain ⟨middle, -, last⟩ := whole.split
  obtain _ | ⟨taken, ⟨⟩⟩ := last
  have again := Cursor.next_again taken ends
  rcases whole.extends_or_extended reads with ⟨more, rfl, onward⟩ | ⟨more, same, onward⟩
  · obtain ⟨others, rfl⟩ := onward.again again
    refine ⟨?_, final, by simp, congrArg Prod.fst again⟩
    intro token member
    rcases List.mem_append.mp member with before | behind
    · exact before
    · rw [others token behind]
      simp
  · rw [same]
    refine ⟨fun token member => List.mem_append_left _ member, ?_⟩
    cases onward with
    | nil =>
        refine ⟨final, ?_, congrArg Prod.fst again⟩
        rw [← same]
        simp
    | cons first _ => exact ⟨_, by simp, first⟩

/-- The tokens of a text with blanks put in between them are the same at their new places. -/
theorem tokensOf_apply {text : List Char} {tokens : List Token} (spacing : Spacing)
    (listed : tokensOf text = .ok tokens) (spares : ∀ token ∈ tokens, spacing.Spares token) :
    tokensOf (spacing.apply text) = .ok (tokens.map (spacing.token text)) := by
  obtain ⟨earlier, final, finish, rfl, whole, passed, ends⟩ :=
    Cursor.split_of_tokensWithin (Cursor.atStart_valid text) (Nat.le_refl _) listed
  obtain ⟨finish', wide, -⟩ := (Cursor.keepsStep_start spacing text).reads whole spares
  rw [List.map_append, List.map_singleton] at wide ⊢
  refine Cursor.tokensWithin_of_reads (Cursor.atStart_valid _) (Nat.le_refl _) wide ?_ ends
  exact List.forall_mem_map.mpr passed

end SlotLogic
