import SlotLogic.Value.Row
import Mathlib.Data.List.Forall2

/-!
Contract: an assignment is made of exactly the rows whose keys are slots and whose data give
values; for every other row the first pair that is in the way is blamed.

Owns: the keys and the data that an assignment takes, what it holds for a row, and the pair and
the message of a fault.

Of one pair the key is judged first. So a message about a datum names a slot, and a datum under
a key that is no slot is not looked at.

Does not own: how a text is read as a number.
-/

set_option autoImplicit false

namespace SlotLogic

open SlotLogic.Text

/-! ## Keys and data -/

/-- A key that is a slot: an integer up to the greatest index, and no truth value. -/
def Key.IsSlot (key : Key) : Prop :=
  ∃ number : Int, key = .integer number ∧ 0 ≤ number ∧ number ≤ greatestIndex

/-- A datum that gives a value: nothing, a truth value, a value, or what stands for one finite
number exactly. -/
inductive Datum.GivesValue : Datum → Prop where
  | none : GivesValue .none
  | bool (flag : Bool) : GivesValue (.bool flag)
  | integer (number : Int) : GivesValue (.integer number)
  | value (held : Value) : GivesValue (.value held)
  | decimal (number : Decimal) : GivesValue (.decimal (.finite number))
  | text {spelling : String} {number : Decimal}
      (reads : ExtendedDecimal.read spelling.toList = some (.finite number)) :
      GivesValue (.text spelling)

/-- A pair that an assignment takes. -/
def Assignable (pair : Key × Datum) : Prop :=
  pair.1.IsSlot ∧ pair.2.GivesValue

theorem Key.index?_integer (number : Int) :
    (Key.integer number).index? =
      if 0 ≤ number ∧ number ≤ greatestIndex then some number.toNat else Option.none :=
  rfl

theorem Key.index?_eq_some_iff {key : Key} {index : Nat} :
    key.index? = some index ↔ key = .integer index ∧ index ≤ greatestIndex := by
  cases key with
  | integer number =>
      rw [index?_integer]
      by_cases within : 0 ≤ number ∧ number ≤ greatestIndex
      · rw [if_pos within, Option.some.injEq, Key.integer.injEq]
        omega
      · rw [if_neg within, Key.integer.injEq]
        exact ⟨nofun, fun same => absurd ⟨by omega, by omega⟩ within⟩
  | none | bool | binary | text => simp [Key.index?]

theorem Key.isSlot_iff {key : Key} : key.IsSlot ↔ ∃ index, key.index? = some index := by
  constructor
  · rintro ⟨number, rfl, nonnegative, within⟩
    exact ⟨number.toNat, if_pos ⟨nonnegative, within⟩⟩
  · rintro ⟨index, found⟩
    obtain ⟨rfl, within⟩ := index?_eq_some_iff.mp found
    exact ⟨index, rfl, Int.natCast_nonneg index, Int.ofNat_le.mpr within⟩

/-- A text is converted as it is read, if that is a finite number. -/
theorem Datum.toValue_text (spelling : String) :
    (Datum.text spelling).toValue =
      match ExtendedDecimal.read spelling.toList with
      | some (.finite number) => .ok (.number number)
      | some _ => .error (.notFinite (quote spelling))
      | Option.none => .error (.unreadable spelling) := by
  have converts : (Datum.text spelling).toValue = (Datum.text spelling).toDecimal.map .number := rfl
  rw [converts, toDecimal]
  cases ExtendedDecimal.read spelling.toList with
  | none => rfl
  | some number => cases number <;> rfl

/-- The conversion gives a value to exactly the data that give one. -/
theorem Datum.givesValue_iff {datum : Datum} :
    datum.GivesValue ↔ ∃ value, datum.toValue = .ok value := by
  constructor
  · intro gives
    cases gives with
    | none => exact ⟨.null, rfl⟩
    | bool flag => exact ⟨.bool flag, rfl⟩
    | integer number => exact ⟨.number (Decimal.ofInt number), rfl⟩
    | value held => exact ⟨held, rfl⟩
    | decimal number => exact ⟨.number number, rfl⟩
    | @text spelling number reads =>
        refine ⟨.number number, ?_⟩
        rw [toValue_text, reads]
  · rintro ⟨value, converted⟩
    cases datum with
    | none => exact .none
    | bool flag => exact .bool flag
    | integer number => exact .integer number
    | value held => exact .value held
    | text spelling =>
        rw [toValue_text] at converted
        split at converted <;> rename_i reads
        · exact .text reads
        · cases converted
        · cases converted
    | decimal number =>
        cases number with
        | finite number => exact .decimal number
        | infinite | nan => cases converted
    | binary | list | record => cases converted

/-! ## Pairs -/

/-- An entry is what a pair is assigned: its slot, and the value that its datum gives. -/
structure Assigned (pair : Key × Datum) (entry : Nat × Value) : Prop where
  key : pair.1 = .integer entry.1
  within : entry.1 ≤ greatestIndex
  value : pair.2.toValue = .ok entry.2

/-- What the message about a pair says: about its key if that is no slot, and otherwise about its
datum under that slot. -/
inductive Blamed : Key × Datum → String → Prop where
  | key {key : Key} {datum : Datum} (noSlot : ¬key.IsSlot) :
      Blamed (key, datum) ("slot index must be an integer in 0..255, got " ++ key.shown)
  | datum {index : Nat} {datum : Datum} {fault : ConversionFault} (within : index ≤ greatestIndex)
      (refused : datum.toValue = .error fault) :
      Blamed (.integer index, datum) ("slot " ++ toString index ++ ": " ++ fault.message)

theorem entryOf_ok_iff {pair : Key × Datum} {entry : Nat × Value} :
    Assignment.entryOf pair = .ok entry ↔ Assigned pair entry := by
  obtain ⟨key, datum⟩ := pair
  obtain ⟨index, value⟩ := entry
  constructor
  · intro made
    unfold Assignment.entryOf at made
    split at made <;> rename_i found
    · cases made
    · split at made <;> rename_i converted
      · cases made
        obtain ⟨same, within⟩ := Key.index?_eq_some_iff.mp found
        exact ⟨same, within, converted⟩
      · cases made
  · rintro ⟨same, within, converted⟩
    have found : key.index? = some index := Key.index?_eq_some_iff.mpr ⟨same, within⟩
    simp only [Assignment.entryOf, found, converted]

theorem assignable_iff {pair : Key × Datum} :
    Assignable pair ↔ ∃ entry, Assignment.entryOf pair = .ok entry := by
  unfold Assignable
  rw [Key.isSlot_iff, Datum.givesValue_iff]
  constructor
  · rintro ⟨⟨index, found⟩, value, converted⟩
    obtain ⟨same, within⟩ := Key.index?_eq_some_iff.mp found
    exact ⟨(index, value), entryOf_ok_iff.mpr ⟨same, within, converted⟩⟩
  · rintro ⟨entry, made⟩
    obtain ⟨same, within, converted⟩ := entryOf_ok_iff.mp made
    exact ⟨⟨entry.1, Key.index?_eq_some_iff.mpr ⟨same, within⟩⟩, entry.2, converted⟩

/-- A pair that is refused is blamed for what it lacks. -/
theorem blamed_of_entryOf {pair : Key × Datum} {fault : AssignmentFault}
    (refused : Assignment.entryOf pair = .error fault) : Blamed pair fault.message := by
  obtain ⟨key, datum⟩ := pair
  unfold Assignment.entryOf at refused
  split at refused <;> rename_i found
  · cases refused
    apply Blamed.key
    rw [Key.isSlot_iff, found]
    simp
  · split at refused <;> rename_i converted
    · cases refused
    · cases refused
      obtain ⟨rfl, within⟩ := Key.index?_eq_some_iff.mp found
      exact .datum within converted

/-! ## Rows -/

variable {row : Row} {assignment : Assignment} {fault : AssignmentFault}

theorem ofRow_cons_ok {pair : Key × Datum} {entry : Nat × Value}
    (made : Assignment.entryOf pair = .ok entry) :
    Assignment.ofRow (pair :: row) =
      (Assignment.ofRow row).map fun assigned => ⟨entry :: assigned.entries⟩ := by
  rw [Assignment.ofRow, made]
  cases Assignment.ofRow row <;> rfl

theorem ofRow_cons_error {pair : Key × Datum} (refused : Assignment.entryOf pair = .error fault) :
    Assignment.ofRow (pair :: row) = .error fault := by
  rw [Assignment.ofRow, refused]
  rfl

/-- An assignment holds one entry for each pair, in their order. -/
theorem ofRow_ok_iff :
    Assignment.ofRow row = .ok assignment ↔ List.Forall₂ Assigned row assignment.entries := by
  obtain ⟨entries⟩ := assignment
  induction row generalizing entries with
  | nil =>
      rw [Assignment.ofRow, List.forall₂_nil_left_iff, Except.ok.injEq, Assignment.mk.injEq]
      exact eq_comm
  | cons pair rest inductionHypothesis =>
      cases made : Assignment.entryOf pair with
      | error fault =>
          rw [ofRow_cons_error made]
          refine ⟨nofun, fun each => ?_⟩
          cases each with
          | cons assigned _ => cases made.symm.trans (entryOf_ok_iff.mpr assigned)
      | ok entry =>
          rw [ofRow_cons_ok made]
          constructor
          · intro all
            cases later : Assignment.ofRow rest with
            | error fault =>
                rw [later] at all
                cases all
            | ok assigned =>
                rw [later] at all
                cases all
                exact .cons (entryOf_ok_iff.mp made) ((inductionHypothesis _).mp later)
          · intro each
            cases each with
            | cons assigned others =>
                cases made.symm.trans (entryOf_ok_iff.mpr assigned)
                rw [(inductionHypothesis _).mpr others]
                rfl

/-- Where every pair can be assigned, an assignment is made. -/
theorem exists_ofRow (assignable : ∀ pair ∈ row, Assignable pair) :
    ∃ assignment, Assignment.ofRow row = .ok assignment := by
  induction row with
  | nil => exact ⟨⟨[]⟩, rfl⟩
  | cons pair rest inductionHypothesis =>
      obtain ⟨first, others⟩ := List.forall_mem_cons.mp assignable
      obtain ⟨entry, made⟩ := assignable_iff.mp first
      obtain ⟨assigned, later⟩ := inductionHypothesis others
      exact ⟨⟨entry :: assigned.entries⟩, by rw [ofRow_cons_ok made, later]; rfl⟩

/-- Behind pairs that can be assigned, the first one that is refused decides. -/
theorem ofRow_of_first {before after : Row} {pair : Key × Datum}
    (assignable : ∀ earlier ∈ before, Assignable earlier)
    (refused : Assignment.entryOf pair = .error fault) :
    Assignment.ofRow (before ++ pair :: after) = .error fault := by
  induction before with
  | nil => exact ofRow_cons_error refused
  | cons earlier rest inductionHypothesis =>
      obtain ⟨first, others⟩ := List.forall_mem_cons.mp assignable
      obtain ⟨entry, made⟩ := assignable_iff.mp first
      rw [List.cons_append, ofRow_cons_ok made, inductionHypothesis others]
      rfl

theorem assignable_of_assigned {entries : List (Nat × Value)}
    (each : List.Forall₂ Assigned row entries) : ∀ pair ∈ row, Assignable pair := by
  have both : List.Forall₂ (fun pair entry => Assignable pair ∧ Assigned pair entry) row entries :=
    each.imp fun pair entry assigned =>
      ⟨assignable_iff.mpr ⟨entry, entryOf_ok_iff.mpr assigned⟩, assigned⟩
  exact ((List.forall₂_and_left _ _).mp both).1

/-- The entries of an assignment are taken as they are. -/
theorem ofRow_toRow (made : Assignment.ofRow row = .ok assignment) :
    Assignment.ofRow assignment.toRow = .ok assignment := by
  have each := ofRow_ok_iff.mp made
  have within : List.Forall₂
      (fun (entry : Nat × Value) pair => entry.1 ≤ greatestIndex ∧ Assigned pair entry)
      assignment.entries row :=
    List.Forall₂.flip (each.imp fun pair entry assigned => ⟨assigned.within, assigned⟩)
  rw [ofRow_ok_iff, Assignment.toRow, List.forall₂_map_left_iff, List.forall₂_same]
  intro entry inEntries
  exact ⟨rfl, ((List.forall₂_and_left _ _).mp within).1 entry inEntries, rfl⟩

/-- An assignment is made of a row exactly if each of its keys is a slot and each of its data gives
a value. It holds under the same keys in the same order what the data give, and is made again of
its own entries. For every other row there is a fault, and its message is about the first pair in
the way: about the key if that is no slot, and otherwise about the datum. -/
theorem assignment_takes_slots_with_values (row : Row) :
    ((∃ assignment, Assignment.ofRow row = .ok assignment) ↔ ∀ pair ∈ row, Assignable pair) ∧
    (∀ assignment, Assignment.ofRow row = .ok assignment →
      List.Forall₂ Assigned row assignment.entries ∧
        Assignment.ofRow assignment.toRow = .ok assignment) ∧
    ∀ before pair after, row = before ++ pair :: after →
      (∀ earlier ∈ before, Assignable earlier) → ¬Assignable pair →
      ∃ fault, Assignment.ofRow row = .error fault ∧ Blamed pair fault.message := by
  refine ⟨⟨?_, exists_ofRow⟩, ?_, ?_⟩
  · rintro ⟨assignment, made⟩
    exact assignable_of_assigned (ofRow_ok_iff.mp made)
  · intro assignment made
    exact ⟨ofRow_ok_iff.mp made, ofRow_toRow made⟩
  · rintro before pair after rfl assignable refused
    cases made : Assignment.entryOf pair with
    | ok entry => exact absurd (assignable_iff.mpr ⟨entry, made⟩) refused
    | error fault => exact ⟨fault, ofRow_of_first assignable made, blamed_of_entryOf made⟩

/-- A row with a number between blanks, an infinite one, a truth value as a key, and an index that
is too great. -/
def faultyRow : Row :=
  [(.integer 3, .text " -0.50 "), (.integer 0, .text "Infinity"), (.bool true, .integer 5),
    (.integer 256, .none)]

/-- The infinite number is blamed, though both keys behind it are no slots. -/
theorem infinite_number_is_blamed :
    (∀ earlier ∈ faultyRow.take 1, Assignable earlier) ∧
      ¬Assignable (.integer 0, .text "Infinity") ∧
      Blamed (.integer 0, .text "Infinity") "slot 0: NumberValue must be finite, got 'Infinity'" ∧
      ∃ fault, Assignment.ofRow faultyRow = .error fault ∧
        fault.message = "slot 0: NumberValue must be finite, got 'Infinity'" := by
  have first : Assignment.entryOf (.integer 3, .text " -0.50 ") =
      .ok (3, .number ⟨true, 50, -2⟩) := by
    rfl
  have assignable : ∀ earlier ∈ faultyRow.take 1, Assignable earlier :=
    List.forall_mem_singleton.mpr (assignable_iff.mpr ⟨_, first⟩)
  have infinite : Assignment.entryOf (.integer 0, .text "Infinity") =
      .error (.badDatum 0 (.notFinite "'Infinity'")) := by
    rfl
  have refused : ¬Assignable (.integer 0, .text "Infinity") := by
    rw [assignable_iff, infinite]
    simp
  obtain ⟨fault, made, blamed⟩ :=
    (assignment_takes_slots_with_values faultyRow).2.2 _ _ _ rfl assignable refused
  have same : fault = .badDatum 0 (.notFinite "'Infinity'") :=
    Except.error.inj (made.symm.trans (ofRow_of_first assignable infinite))
  subst same
  exact ⟨assignable, refused, blamed, _, made, rfl⟩

end SlotLogic
