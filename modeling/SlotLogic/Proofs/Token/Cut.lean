import SlotLogic.Proofs.Token.Spelling

/-!
Contract: the token list of a text is the one way to cut the text by the longest match.

Owns: the longest literal at a place, runs of digits, the law of each sort of token, lists
of tokens that are cut from a text, and their agreement with the tokens that are taken.

The law speaks of the characters of the text only. It says what a cursor takes at a place,
and a place where a token ended never lies inside a run of digits, so by induction over the
tokens a list is taken from the start of a text exactly if it is cut from it.

Does not own: what tokens mean.
-/

set_option autoImplicit false

namespace SlotLogic

open SlotLogic.Text

/-! ## The longest literal -/

/-- No literal stands before another one that it begins. -/
theorem literals_longer_first :
    literals.Pairwise fun earlier later => ¬earlier.text <+: later.text := by
  decide

theorem nodup_texts_of_literals : (literals.map Literal.text).Nodup := by
  decide

/-- No literal that begins a text is longer than the first one that does. -/
theorem longest_of_find {text : List Char} {literal other : Literal}
    (found : (literals.find? fun literal => literal.text.isPrefixOf text) = some literal)
    (member : other ∈ literals) (begins : other.text <+: text) :
    other.text.length ≤ literal.text.length := by
  have literalBegins := (literal_of_find found).2
  obtain ⟨-, earlier, later, whole, missed⟩ := List.find?_eq_some_iff_append.mp found
  have ordered := literals_longer_first
  rw [whole, List.pairwise_append, List.pairwise_cons] at ordered
  rw [whole, List.mem_append, List.mem_cons] at member
  rcases member with before | rfl | behind
  · have matches' := missed other before
    rw [List.isPrefixOf_iff_prefix.mpr begins] at matches'
    cases matches'
  · exact Nat.le_refl _
  · by_contra longer
    exact ordered.2.1.1 other behind
      (List.prefix_of_prefix_length_le literalBegins begins (by omega))

/-- The first literal that begins a text is the longest one that does. -/
theorem find_literal_iff {text : List Char} {literal : Literal} :
    (literals.find? fun literal => literal.text.isPrefixOf text) = some literal ↔
      literal ∈ literals ∧ literal.text <+: text ∧
        ∀ other ∈ literals, other.text <+: text → other.text.length ≤ literal.text.length := by
  constructor
  · intro found
    obtain ⟨member, begins⟩ := literal_of_find found
    exact ⟨member, begins, fun other => longest_of_find found⟩
  · rintro ⟨member, begins, longest⟩
    have some : (literals.find? fun literal => literal.text.isPrefixOf text).isSome = true :=
      List.find?_isSome.mpr ⟨literal, member, List.isPrefixOf_iff_prefix.mpr begins⟩
    obtain ⟨found, first⟩ := Option.isSome_iff_exists.mp some
    obtain ⟨foundMember, foundBegins⟩ := literal_of_find first
    have length : found.text.length = literal.text.length :=
      Nat.le_antisymm (longest found foundMember foundBegins) (longest_of_find first member begins)
    have same : found.text = literal.text :=
      (List.prefix_of_prefix_length_le foundBegins begins (Nat.le_of_eq length)).eq_of_length length
    rw [first, List.inj_on_of_nodup_map nodup_texts_of_literals foundMember member same]

theorem no_literal_iff {text : List Char} :
    (literals.find? fun literal => literal.text.isPrefixOf text) = none ↔
      ∀ literal ∈ literals, ¬literal.text <+: text := by
  simp [List.find?_eq_none, List.isPrefixOf_iff_prefix]

/-! ## The law of a token -/

/-- A run of digits with a first digit other than zero, next to which no digit stands. -/
structure Token.IsRun (source : List Char) (token : Token) : Prop where
  leads : ∃ c more, token.text = c :: more ∧ isLeadingDigit c = true
  digits : ∀ c ∈ token.text, c.isDigit = true
  before : ∀ c ∈ (source.take token.start).getLast?, c.isDigit = false
  behind : ∀ c ∈ (source.drop token.stop).head?, c.isDigit = false

/-- What each sort of token is in the text that it was cut from. -/
inductive Token.Fits (source : List Char) (token : Token) : Prop where
  | endOfText (kind : token.kind = .endOfText) (place : token.start = source.length)
  | literal (literal : Literal) (member : literal ∈ literals) (kind : token.kind = literal.kind)
      (text : token.text = literal.text)
      (longest : ∀ other ∈ literals, other.text <+: source.drop token.start →
        other.text.length ≤ literal.text.length)
  | numeral (index : Nat) (kind : token.kind = .number) (run : token.IsRun source)
      (digits : token.text = Nat.toDigits 10 index) (names : token.index? = some index)
      (positive : 1 ≤ index) (within : index ≤ greatestIndex)
  | beyond (value : Nat) (kind : token.kind = .undefined) (run : token.IsRun source)
      (digits : token.text = Nat.toDigits 10 value) (beyond : greatestIndex < value)
      (converted : token.text.length ≤ digitLimit)
  | single (c : Char) (kind : token.kind = .undefined) (text : token.text = [c])
      (unmatched : ∀ literal ∈ literals, ¬literal.text <+: source.drop token.start)
      (other : isLeadingDigit c = false) (solid : isBlank c = false)

/-- A token stands at or behind a place with nothing but blanks between, is the characters
of the text that it covers, and fits there. -/
structure Token.Stands (source : List Char) (place : Nat) (token : Token) : Prop where
  onward : place ≤ token.start
  blank : ∀ c ∈ source.extract place token.start, isBlank c = true
  text : source.extract token.start token.stop = token.text
  fits : token.Fits source

/-- Tokens that are cut from a text from a place on: each stands behind the one before it,
and the last of them, and no other, is final. -/
inductive CutFrom (source : List Char) : Nat → List Token → Prop where
  | last {place : Nat} {token : Token} (stands : token.Stands source place)
      (final : token.kind.isFinal = true) : CutFrom source place [token]
  | more {place : Nat} {token : Token} {tokens : List Token}
      (stands : token.Stands source place) (passed : token.kind.isFinal = false)
      (rest : CutFrom source token.stop tokens) : CutFrom source place (token :: tokens)

/-! ## Runs of digits -/

theorem literals_without_digits : ∀ literal ∈ literals, literal.text.any Char.isDigit = false := by
  decide

/-- No run of digits goes on across a place. -/
def Parted (source : List Char) (place : Nat) : Prop :=
  ∀ c ∈ (source.take place).getLast?, c.isDigit = true → EndsNumeral (source.drop place)

theorem parted_start (source : List Char) : Parted source 0 := by
  intro c member
  cases member

theorem take_eq_take_append_extract {source : List Char} {place start : Nat}
    (onward : place ≤ start) : source.take start = source.take place ++ source.extract place start := by
  have sum : start = place + (start - place) := by omega
  rw [List.extract_eq_take_drop, ← List.take_add, ← sum]

/-- Behind blanks no digit stands before a digit. -/
theorem Parted.before {source : List Char} {place start : Nat} {c : Char} {rest : List Char}
    (parted : Parted source place) (onward : place ≤ start)
    (blank : ∀ c ∈ source.extract place start, isBlank c = true)
    (here : source.drop start = c :: rest) (digit : c.isDigit = true) :
    ∀ other ∈ (source.take start).getLast?, other.isDigit = false := by
  intro other member
  rw [take_eq_take_append_extract onward] at member
  rw [Bool.eq_false_iff]
  intro isDigit
  cases gap : (source.extract place start).getLast? with
  | some last =>
      rw [List.getLast?_append, gap] at member
      cases member
      have solid := not_blank_of_digit isDigit
      rw [blank other (List.mem_of_getLast? gap)] at solid
      cases solid
  | none =>
      have nothing := List.getLast?_eq_none_iff.mp gap
      have within : start < source.length := by
        have length := congrArg List.length here
        rw [List.length_drop, List.length_cons] at length
        omega
      have same : start = place := by
        have length := congrArg List.length nothing
        rw [List.extract_eq_take_drop, List.length_take, List.length_drop, List.length_nil] at length
        omega
      rw [nothing, List.append_nil] at member
      subst same
      have ends := parted other member isDigit c (by rw [here]; rfl)
      rw [digit] at ends
      cases ends

namespace Token.Stands

variable {source : List Char} {place : Nat} {token : Token}

theorem drop_start (stands : token.Stands source place) :
    source.drop token.start = token.text ++ source.drop token.stop := by
  have length : token.stop - token.start = token.text.length := by
    unfold Token.stop
    omega
  have slice := stands.text
  rw [List.extract_eq_take_drop, length] at slice
  have behind : (source.drop token.start).drop token.text.length = source.drop token.stop := by
    rw [List.drop_drop]
    rfl
  have whole := (List.take_append_drop token.text.length (source.drop token.start)).symm
  rw [slice, behind] at whole
  exact whole

end Token.Stands

/-! ## What a cursor takes -/

/-- A digit string is converted up to the digit limit, and names a slot up to the greatest
index. -/
theorem numeralLexeme_iff {digits : List Char} {lexeme : Lexeme} :
    numeralLexeme digits = .ok lexeme ↔
      digits.length ≤ digitLimit ∧ lexeme.text = digits ∧
        lexeme.kind = if numeralValue digits ≤ greatestIndex then .number else .undefined := by
  obtain ⟨kind, text⟩ := lexeme
  unfold numeralLexeme
  by_cases long : digitLimit < digits.length
  · simp [long, Nat.not_le.mpr long]
  · by_cases within : numeralValue digits ≤ greatestIndex
    · simp [long, within, Nat.not_lt.mp long, and_comm, eq_comm]
    · simp [long, within, Nat.not_lt.mp long, and_comm, eq_comm]

/-- The characters at the front of a text, by what was found there. -/
theorem scan_cons {c : Char} {rest : List Char} {lexeme : Lexeme}
    (scanned : scan (c :: rest) = .ok lexeme) :
    (∃ literal, (literals.find? fun literal => literal.text.isPrefixOf (c :: rest)) =
        some literal ∧ lexeme = ⟨literal.kind, literal.text⟩) ∨
    (literals.find? fun literal => literal.text.isPrefixOf (c :: rest)) = none ∧
      ((isLeadingDigit c = true ∧
          numeralLexeme ((c :: rest).takeWhile Char.isDigit) = .ok lexeme) ∨
        (isLeadingDigit c = false ∧ lexeme = ⟨.undefined, [c]⟩)) := by
  rw [scan_of_cons] at scanned
  cases found : literals.find? fun literal => literal.text.isPrefixOf (c :: rest) with
  | some literal =>
      rw [found] at scanned
      exact .inl ⟨literal, rfl, (Except.ok.inj scanned).symm⟩
  | none =>
      rw [found] at scanned
      simp only at scanned
      cases leading : isLeadingDigit c with
      | true =>
          rw [leading] at scanned
          exact .inr ⟨rfl, .inl ⟨rfl, scanned⟩⟩
      | false =>
          rw [leading] at scanned
          exact .inr ⟨rfl, .inr ⟨rfl, (Except.ok.inj scanned).symm⟩⟩

/-- The digits that stand together at a place are a run, if none stands before it. -/
theorem isRun_of_takeWhile {source : List Char} {token : Token} {c : Char} {rest : List Char}
    (here : source.drop token.start = c :: rest) (leading : isLeadingDigit c = true)
    (text : token.text = (c :: rest).takeWhile Char.isDigit)
    (before : ∀ other ∈ (source.take token.start).getLast?, other.isDigit = false) :
    token.IsRun source where
  leads := by
    rw [text, List.takeWhile_cons_of_pos (isDigit_of_leading leading)]
    exact ⟨c, _, rfl, leading⟩
  digits := by
    rw [text]
    exact fun _ member => List.mem_takeWhile_imp member
  before := before
  behind := by
    have whole : token.text ++ (c :: rest).dropWhile Char.isDigit = c :: rest := by
      rw [text, List.takeWhile_append_dropWhile]
    have behind : source.drop token.stop = (c :: rest).dropWhile Char.isDigit := by
      rw [Token.stop, ← List.drop_drop, here]
      nth_rewrite 1 [← whole]
      exact List.drop_left
    rw [behind]
    exact head?_dropWhile

/-- A run of digits is what its value is written as. -/
theorem Token.IsRun.written {source : List Char} {token : Token} (run : token.IsRun source) :
    token.text = Nat.toDigits 10 (numeralValue token.text) := by
  obtain ⟨c, more, text, leading⟩ := run.leads
  have digits := run.digits
  rw [text] at digits ⊢
  exact (toDigits_numeralValue leading more fun digit member =>
    digits digit (List.mem_cons_of_mem _ member)).symm

/-- A run of digits that is converted names a slot or is beyond all of them. -/
theorem Token.IsRun.fits {source : List Char} {token : Token} (run : token.IsRun source)
    (converted : token.text.length ≤ digitLimit)
    (kind : token.kind =
      if numeralValue token.text ≤ greatestIndex then .number else .undefined) :
    token.Fits source := by
  by_cases within : numeralValue token.text ≤ greatestIndex
  · rw [if_pos within] at kind
    have positive : 1 ≤ numeralValue token.text := by
      obtain ⟨c, more, text, leading⟩ := run.leads
      rw [text]
      exact numeralValue_pos more leading
    exact .numeral _ kind run run.written (by rw [Token.index?, if_pos kind]) positive within
  · rw [if_neg within] at kind
    exact .beyond _ kind run run.written (by omega) converted

/-- What is scanned at a place that no blank stands at fits there. -/
theorem fits_of_scan {source : List Char} {token : Token}
    (scanned : scan (source.drop token.start) = .ok ⟨token.kind, token.text⟩)
    (within : token.start ≤ source.length)
    (solid : ∀ c ∈ (source.drop token.start).head?, isBlank c = false)
    (before : ∀ c ∈ (source.drop token.start).head?, c.isDigit = true →
      ∀ other ∈ (source.take token.start).getLast?, other.isDigit = false) :
    token.Fits source := by
  cases here : source.drop token.start with
  | nil =>
      rw [here] at scanned
      have length := congrArg List.length here
      rw [List.length_drop, List.length_nil] at length
      have kind : Kind.endOfText = token.kind := congrArg Lexeme.kind (Except.ok.inj scanned)
      exact .endOfText kind.symm (by omega)
  | cons c rest =>
      rw [here] at scanned solid before
      rcases scan_cons scanned with ⟨literal, found, same⟩ |
        ⟨none, ⟨leading, numeral⟩ | ⟨other, same⟩⟩
      · obtain ⟨member, -, longest⟩ := find_literal_iff.mp found
        rw [← here] at longest
        exact .literal literal member (congrArg Lexeme.kind same) (congrArg Lexeme.text same)
          longest
      · obtain ⟨converted, text, kind⟩ := numeralLexeme_iff.mp numeral
        have run := isRun_of_takeWhile here leading text
          (before c rfl (isDigit_of_leading leading))
        rw [← text] at converted kind
        exact run.fits converted kind
      · refine .single c (congrArg Lexeme.kind same) (congrArg Lexeme.text same) ?_ other
          (solid c rfl)
        rw [here]
        exact no_literal_iff.mp none

theorem stands_of_next {cursor : Cursor} {token : Token} (valid : cursor.Valid)
    (parted : Parted cursor.text cursor.position) (taken : cursor.next.1 = .ok token) :
    token.Stands cursor.text cursor.position := by
  obtain ⟨scanned, start⟩ := Cursor.scan_of_next taken
  have onward := Cursor.next_start valid taken
  have here : cursor.skipBlanks.remaining = cursor.text.drop token.start := by
    rw [start]
    rfl
  have blank : ∀ c ∈ cursor.text.extract cursor.position token.start, isBlank c = true := by
    have gap : cursor.text.extract cursor.position token.start =
        cursor.remaining.takeWhile isBlank := by
      rw [List.extract_eq_take_drop, start]
      show cursor.remaining.take (cursor.position + _ - cursor.position) = _
      rw [Nat.add_sub_cancel_left]
      exact (List.prefix_iff_eq_take.mp (List.takeWhile_prefix _)).symm
    rw [gap]
    exact fun c member => List.mem_takeWhile_imp member
  have solid : ∀ c ∈ (cursor.text.drop token.start).head?, isBlank c = false := by
    rw [← here]
    exact cursor.skipBlanks_stops
  rw [here] at scanned
  refine ⟨onward, blank, ?_, ?_⟩
  · have length : token.stop - token.start = token.text.length := by
      unfold Token.stop
      omega
    rw [List.extract_eq_take_drop, length]
    exact (List.prefix_iff_eq_take.mp (scan_begins scanned)).symm
  · have within : token.start ≤ cursor.text.length := by
      rw [start]
      exact (Cursor.skipBlanks_leads valid).valid
    apply fits_of_scan scanned within solid
    intro c member digit
    obtain ⟨rest, text⟩ := List.head?_eq_some_iff.mp member
    exact parted.before onward blank text digit

/-! ## What stands at a place is taken there -/

theorem Token.IsRun.scan {source : List Char} {token : Token} (run : token.IsRun source)
    (here : source.drop token.start = token.text ++ source.drop token.stop) :
    scan (source.drop token.start) = numeralLexeme token.text := by
  have ends : EndsNumeral (source.drop token.stop) := run.behind
  have maximal := ends.takeWhile run.digits
  obtain ⟨c, more, text, leading⟩ := run.leads
  rw [here]
  rw [text] at maximal ⊢
  rw [List.cons_append] at maximal ⊢
  rw [scan_of_leading _ leading, maximal]

namespace Token.Stands

variable {source : List Char} {place : Nat} {token : Token}

theorem scan (stands : token.Stands source place) :
    scan (source.drop token.start) = .ok ⟨token.kind, token.text⟩ := by
  have here := stands.drop_start
  cases stands.fits with
  | endOfText kind atEnd =>
      have nothing : source.drop token.start = [] := by
        rw [atEnd, List.drop_length]
      rw [nothing] at here ⊢
      rw [(List.append_eq_nil_iff.mp here.symm).1, kind]
      rfl
  | literal literal member kind text longest =>
      have begins : literal.text <+: source.drop token.start := by
        rw [here, text]
        exact List.prefix_append _ _
      rw [kind, text]
      exact scan_of_find (find_literal_iff.mpr ⟨member, begins, longest⟩)
  | numeral index kind run digits names positive within =>
      have value : numeralValue token.text = index := by
        rw [digits, numeralValue_toDigits]
      have short : token.text.length ≤ 3 := by
        rw [digits]
        apply (Nat.length_toDigits_le_iff (by decide) (by decide)).mpr
        unfold greatestIndex at within
        omega
      rw [run.scan here, numeralLexeme_iff, value, if_pos within]
      exact ⟨Nat.le_trans short (by decide), rfl, kind⟩
  | beyond value kind run digits beyond converted =>
      have same : numeralValue token.text = value := by
        rw [digits, numeralValue_toDigits]
      rw [run.scan here, numeralLexeme_iff, same, if_neg (by omega)]
      exact ⟨converted, rfl, kind⟩
  | single c kind text unmatched other =>
      rw [text, List.singleton_append] at here
      rw [here] at unmatched ⊢
      rw [scan_of_cons, no_literal_iff.mpr unmatched, kind, text]
      exact if_neg (by simp [other])

theorem start_le_length (stands : token.Stands source place) :
    token.start ≤ source.length := by
  by_contra beyond
  have nothing : source.drop token.start = [] := List.drop_of_length_le (by omega)
  have scanned := stands.scan
  rw [nothing] at scanned
  have kind : Kind.endOfText = token.kind := congrArg Lexeme.kind (Except.ok.inj scanned)
  cases stands.fits with
  | endOfText _ atEnd => omega
  | literal literal member other =>
      have passed := (literals_are_words literal member).2.1
      rw [← other, ← kind] at passed
      cases passed
  | numeral _ other | beyond _ other | single _ other =>
      rw [other] at kind
      cases kind

/-- Where a token stands, the blanks in front of it end. -/
theorem solid_start (stands : token.Stands source place) :
    ∀ c ∈ (source.drop token.start).head?, isBlank c = false := by
  have here := stands.drop_start
  have solidRun : token.IsRun source →
      ∀ c ∈ (token.text ++ source.drop token.stop).head?, isBlank c = false := by
    intro run c member
    obtain ⟨first, more, text, leading⟩ := run.leads
    rw [text] at member
    cases member
    exact not_blank_of_digit (isDigit_of_leading leading)
  rw [here]
  cases stands.fits with
  | endOfText kind atEnd =>
      rw [← here, atEnd, List.drop_length]
      intro c member
      cases member
  | literal literal member kind text longest =>
      obtain ⟨first, more, characters, -, solid⟩ := literal_starts member
      rw [text, characters]
      intro c member
      cases member
      exact solid
  | numeral index kind run => exact solidRun run
  | beyond value kind run => exact solidRun run
  | single first kind text unmatched other solid =>
      rw [text]
      intro c member
      cases member
      exact solid

theorem skipBlanks (stands : token.Stands source place) :
    (⟨source, place⟩ : Cursor).skipBlanks = ⟨source, token.start⟩ := by
  have onward := stands.onward
  have within := stands.start_le_length
  have gap : source.drop place = source.extract place token.start ++ source.drop token.start := by
    have behind : (source.drop place).drop (token.start - place) = source.drop token.start := by
      rw [List.drop_drop]
      congr 1
      omega
    rw [List.extract_eq_take_drop, ← behind, List.take_append_drop]
  have stops : (source.drop token.start).takeWhile isBlank = [] :=
    takeWhile_of_head? stands.solid_start
  have length : (source.extract place token.start).length = token.start - place := by
    rw [List.extract_eq_take_drop, List.length_take, List.length_drop]
    omega
  unfold Cursor.skipBlanks Cursor.remaining
  simp only
  rw [gap, List.takeWhile_append_of_pos stands.blank, stops, List.append_nil, length]
  congr 1
  omega

/-- A token that stands behind a place is the one that a cursor takes there. -/
theorem next (stands : token.Stands source place) :
    (⟨source, place⟩ : Cursor).next =
      (.ok token,
        if token.kind = .undefined then ⟨source, token.start⟩ else ⟨source, token.stop⟩) := by
  have skipped := stands.skipBlanks
  have scanned : SlotLogic.scan (⟨source, place⟩ : Cursor).skipBlanks.remaining =
      .ok ⟨token.kind, token.text⟩ := by
    rw [skipped]
    exact stands.scan
  rw [Cursor.next_of_scan scanned, skipped]
  rfl

/-- Behind a token that is passed no run of digits goes on. -/
theorem parted (stands : token.Stands source place) (passed : token.kind.isFinal = false) :
    Parted source token.stop := by
  intro c member digit
  cases stands.fits with
  | literal literal inTable kind text longest =>
      have some : literal.text ≠ [] := (literals_are_words literal inTable).1
      have onward : token.start ≤ token.stop := Nat.le_add_right _ _
      rw [take_eq_take_append_extract onward, stands.text, text,
        List.getLast?_append_of_ne_nil _ some] at member
      have others := List.any_eq_false.mp (literals_without_digits literal inTable) c
        (List.mem_of_getLast? member)
      exact absurd digit others
  | numeral index kind run => exact run.behind
  | endOfText kind | beyond _ kind | single _ kind =>
      rw [kind] at passed
      cases passed

end Token.Stands

/-! ## Lists of tokens -/

theorem Token.Stands.unique {source : List Char} {place : Nat} {token other : Token}
    (stands : token.Stands source place) (stands' : other.Stands source place) :
    token = other := by
  have same := congrArg Prod.fst (stands.next.symm.trans stands'.next)
  exact Except.ok.inj same

/-- The token that stands at a place is the first that is cut there. -/
theorem cutFrom_iff {source : List Char} {place : Nat} {token : Token} {tokens : List Token}
    (stands : token.Stands source place) :
    CutFrom source place tokens ↔
      if token.kind.isFinal then tokens = [token]
      else ∃ later, tokens = token :: later ∧ CutFrom source token.stop later := by
  constructor
  · intro cut
    cases cut with
    | last stands' final =>
        cases stands.unique stands'
        rw [if_pos final]
    | more stands' passed rest =>
        cases stands.unique stands'
        rw [if_neg (by simp [passed])]
        exact ⟨_, rfl, rest⟩
  · intro cut
    split at cut
    · rename_i final
      rw [cut]
      exact .last stands final
    · rename_i passed
      obtain ⟨later, rfl, rest⟩ := cut
      exact .more stands (by simpa using passed) rest

/-- A list of tokens is taken from a place exactly if it is cut from the text there. -/
theorem tokensWithin_iff_cutFrom {source : List Char} {bound place : Nat} {tokens : List Token}
    (valid : (⟨source, place⟩ : Cursor).Valid)
    (enough : (⟨source, place⟩ : Cursor).remaining.length ≤ bound)
    (parted : Parted source place) :
    (⟨source, place⟩ : Cursor).tokensWithin bound = .ok tokens ↔ CutFrom source place tokens := by
  -- Behind a token that is passed less is left, and no run of digits goes on there.
  induction bound generalizing place tokens with
  | zero =>
      have nothing := List.length_eq_zero_iff.mp (Nat.le_zero.mp enough)
      have atEnd := Cursor.next_of_remaining_nil nothing
      rw [Cursor.tokensWithin, atEnd, cutFrom_iff (stands_of_next valid parted atEnd)]
      simp [Except.map, Kind.isFinal, eq_comm]
  | succ bound inductionHypothesis =>
      rw [Cursor.tokensWithin_succ]
      cases taken : (⟨source, place⟩ : Cursor).next.1 with
      | error numeral =>
          have none : ¬CutFrom source place tokens := by
            intro cut
            cases cut with
            | last stands | more stands =>
                rw [stands.next] at taken
                cases taken
          simp [none]
      | ok token =>
          have stands : token.Stands source place := stands_of_next valid parted taken
          rw [cutFrom_iff stands]
          simp only
          split
          · simp [eq_comm]
          · rename_i passed
            have notFinal : token.kind.isFinal = false := by simpa using passed
            have defined : token.kind ≠ .undefined := by
              intro undefined
              rw [undefined] at notFinal
              cases notFinal
            have onward : (⟨source, place⟩ : Cursor).next.2 = ⟨source, token.stop⟩ := by
              rw [stands.next]
              exact if_neg defined
            have shorter := Cursor.next_remaining_lt valid taken notFinal
            have later := (Cursor.next_leads valid).valid
            rw [onward] at shorter later ⊢
            have listed : ∀ others, (⟨source, token.stop⟩ : Cursor).tokensWithin bound =
                .ok others ↔ CutFrom source token.stop others := fun others =>
              inductionHypothesis later (by omega) (stands.parted notFinal)
            simp only [← listed]
            cases (⟨source, token.stop⟩ : Cursor).tokensWithin bound with
            | error numeral => simp [Except.map]
            | ok rest => simp [Except.map, eq_comm]

/-- The tokens of a text are exactly the ones that are cut from its start: each is the longest
literal, a whole run of digits or a single character that starts nothing, only blanks stand
between them, and the last one alone is final. -/
theorem tokensOf_iff_cutFrom {source : List Char} {tokens : List Token} :
    tokensOf source = .ok tokens ↔ CutFrom source 0 tokens :=
  tokensWithin_iff_cutFrom (Cursor.atStart_valid source) (Nat.le_refl _) (parted_start source)

end SlotLogic
