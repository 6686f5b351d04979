import Mathlib.Data.List.Dedup
import Mathlib.Data.List.DropRight

/-!
Contract: the order of last calls in a history.

Owns: the distinct keys of a list of calls by their last call, the calls since the last
call of a key, and the place of a key in that order.

A key stands behind as many others as were called since its last call. One more call
moves its key to the front and leaves the order of the others.

Does not own: stores.
-/

set_option autoImplicit false

namespace SlotLogic

variable {Key : Type} [DecidableEq Key]

/-- The keys of some calls, each once, the one that was called last first. -/
def byLastCall (calls : List Key) : List Key :=
  calls.dedup.reverse

/-- The calls after the last call of a key, and all of them if there is none. -/
def callsSince (key : Key) (calls : List Key) : List Key :=
  calls.rtakeWhile (· != key)

variable {key : Key} {calls : List Key}

theorem nodup_byLastCall (calls : List Key) : (byLastCall calls).Nodup :=
  List.nodup_reverse.mpr (List.nodup_dedup calls)

theorem mem_byLastCall : key ∈ byLastCall calls ↔ key ∈ calls := by
  rw [byLastCall, List.mem_reverse, List.mem_dedup]

private theorem dedup_concat (calls : List Key) (key : Key) :
    (calls ++ [key]).dedup = calls.dedup.filter (· != key) ++ [key] := by
  induction calls with
  | nil => rfl
  | cons first later inductionHypothesis =>
      rw [List.cons_append]
      by_cases again : first ∈ later
      · rw [List.dedup_cons_of_mem (List.mem_append_left _ again), List.dedup_cons_of_mem again]
        exact inductionHypothesis
      · rw [List.dedup_cons_of_notMem again]
        by_cases same : first = key
        · rw [List.dedup_cons_of_mem (by simp [same]), inductionHypothesis]
          simp [same]
        · rw [List.dedup_cons_of_notMem (by simp [again, same]), inductionHypothesis]
          simp [same]

/-- A call moves its key to the front. -/
theorem byLastCall_concat (calls : List Key) (key : Key) :
    byLastCall (calls ++ [key]) = key :: (byLastCall calls).filter (· != key) := by
  rw [byLastCall, dedup_concat, List.reverse_append, ← List.filter_reverse]
  rfl

/-! ## The place of a key -/

theorem not_mem_callsSince (key : Key) (calls : List Key) : key ∉ callsSince key calls := by
  intro member
  have other := List.mem_rtakeWhile_imp member
  simp at other

/-- A key that was called splits the calls at its last call. -/
theorem exists_before_callsSince (called : key ∈ calls) :
    ∃ before, calls = before ++ key :: callsSince key calls := by
  induction calls using List.reverseRecOn with
  | nil => cases called
  | append_singleton earlier last inductionHypothesis =>
      by_cases same : last = key
      · refine ⟨earlier, ?_⟩
        rw [callsSince, List.rtakeWhile_concat_neg _ _ _ (by simp [same]), same]
      · have earlierCalled : key ∈ earlier := by
          rcases List.mem_append.mp called with here | there
          · exact here
          · exact absurd (List.mem_singleton.mp there).symm same
        obtain ⟨before, split⟩ := inductionHypothesis earlierCalled
        refine ⟨before, ?_⟩
        rw [callsSince, List.rtakeWhile_concat_pos _ _ _ (by simp [same])]
        show earlier ++ [last] = before ++ key :: (callsSince key earlier ++ [last])
        rw [← List.cons_append, ← List.append_assoc, ← split]

/-- Calls that end with calls of other keys have these since the last call. -/
theorem callsSince_append {before since : List Key} (others : key ∉ since) :
    callsSince key (before ++ key :: since) = since := by
  induction since using List.reverseRecOn with
  | nil => exact List.rtakeWhile_concat_neg _ _ _ (by simp)
  | append_singleton earlier last inductionHypothesis =>
      have apart : last ≠ key := fun same => others (by simp [same])
      have earlierOthers : key ∉ earlier := fun member => others (by simp [member])
      rw [callsSince, ← List.cons_append, ← List.append_assoc,
        List.rtakeWhile_concat_pos _ _ _ (by simp [apart])]
      exact congrArg (· ++ [last]) (inductionHypothesis earlierOthers)

/-- Calls that do not count may be left out before or after the split. -/
theorem callsSince_filter {counts : Key → Bool} (counted : counts key = true)
    (called : key ∈ calls) :
    callsSince key (calls.filter counts) = (callsSince key calls).filter counts := by
  obtain ⟨before, split⟩ := exists_before_callsSince called
  have others : key ∉ (callsSince key calls).filter counts := fun member =>
    not_mem_callsSince key calls (List.mem_of_mem_filter member)
  have filtered : calls.filter counts =
      before.filter counts ++ key :: (callsSince key calls).filter counts := by
    conv_lhs => rw [split]
    rw [List.filter_append, List.filter_cons_of_pos counted]
  rw [filtered, callsSince_append others]

/-- What was called since stands before a key by last call, and nothing else. -/
theorem byLastCall_split (called : key ∈ calls) :
    ∃ behind, byLastCall calls = (callsSince key calls).dedup.reverse ++ key :: behind := by
  obtain ⟨before, split⟩ := exists_before_callsSince called
  have others := not_mem_callsSince key calls
  generalize callsSince key calls = since at split others ⊢
  have distinct : (key :: since).dedup = key :: since.dedup := List.dedup_cons_of_notMem others
  obtain ⟨earlier, last⟩ : key :: since.dedup <:+ calls.dedup := by
    rw [split, List.dedup_append, distinct]
    exact List.suffix_union_right _ _
  refine ⟨earlier.reverse, ?_⟩
  rw [byLastCall, ← last]
  simp

/-- A key stands among the first few by last call if it was called, and fewer others
were called since. -/
theorem mem_take_byLastCall {bound : Nat} :
    key ∈ (byLastCall calls).take bound ↔
      key ∈ calls ∧ (callsSince key calls).dedup.length < bound := by
  by_cases called : key ∈ calls
  · obtain ⟨behind, order⟩ := byLastCall_split called
    have others : key ∉ (callsSince key calls).dedup.reverse := by
      simpa using not_mem_callsSince key calls
    rw [order, List.take_append, List.length_reverse]
    by_cases within : (callsSince key calls).dedup.length < bound
    · obtain ⟨places, rest⟩ := Nat.exists_eq_add_of_lt within
      have first : bound - (callsSince key calls).dedup.length = places + 1 := by omega
      simp [called, within, first]
    · have none : bound - (callsSince key calls).dedup.length = 0 := by omega
      rw [none, List.take_zero, List.append_nil]
      have absent : key ∉ (callsSince key calls).dedup.reverse.take bound := fun member =>
        others (List.mem_of_mem_take member)
      simp only [absent, within, and_false]
  · have absent : key ∉ (byLastCall calls).take bound := fun member =>
      called (mem_byLastCall.mp (List.mem_of_mem_take member))
    simp only [absent, called, false_and]

/-! ## The first few -/

/-- Whether a key is moved to the front of all keys or of the first few only, the same
ones come first. -/
theorem take_moved_to_front {keys : List Key} (distinct : keys.Nodup) (bound : Nat) (key : Key) :
    (key :: keys.filter (· != key)).take bound =
      (key :: (keys.take bound).filter (· != key)).take bound := by
  cases bound with
  | zero => rfl
  | succ bound =>
      rw [List.take_succ_cons, List.take_succ_cons]
      congr 1
      have cut : keys.filter (· != key) =
          (keys.take (bound + 1)).filter (· != key) ++
            (keys.drop (bound + 1)).filter (· != key) := by
        rw [← List.filter_append, List.take_append_drop]
      rw [cut]
      by_cases all : keys.length ≤ bound + 1
      · rw [List.drop_of_length_le all, List.filter_nil, List.append_nil]
      · -- Only the one key is missing among the first, so enough of them are left.
        have firstDistinct : (keys.take (bound + 1)).Nodup := (List.take_sublist _ _).nodup distinct
        have enough : bound ≤ ((keys.take (bound + 1)).filter (· != key)).length := by
          rw [← firstDistinct.erase_eq_filter, List.length_erase, List.length_take]
          split <;> omega
        exact List.take_append_of_le_length enough

end SlotLogic
