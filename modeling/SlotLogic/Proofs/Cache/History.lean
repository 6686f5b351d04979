import SlotLogic.Cache
import SlotLogic.Proofs.Cache.Recency

/-!
Contract: what a store holds after a history of calls.

Owns: everything that one call can do to a store, the agreement of a store with its
history, and what follows for answers, hits and entries.

`fetch_cases` says once what a call can do; `Follows` is what every call keeps. A store
holds the keys that were computed with success, as many as fit, the one called last
first. A call that faults leaves no trace but a miss.

Does not own: the function whose results are stored.
-/

set_option autoImplicit false

namespace SlotLogic.Cache

variable {Key Result Fault : Type}

/-- The keys that a store holds, the most recently used first. -/
def keys (cache : Cache Key Result) : List Key :=
  cache.entries.map Prod.fst

/-- Whether a key has a result that can be stored. -/
def succeeds (compute : Key → Except Fault Result) (key : Key) : Bool :=
  (compute key).isOk

theorem succeeds_of_ok {compute : Key → Except Fault Result} {key : Key} {result : Result}
    (computed : compute key = .ok result) : succeeds compute key = true := by
  rw [succeeds, computed]
  rfl

theorem succeeds_of_error {compute : Key → Except Fault Result} {key : Key} {fault : Fault}
    (computed : compute key = .error fault) : succeeds compute key = false := by
  rw [succeeds, computed]
  rfl

variable [DecidableEq Key]

/-- The store after some calls, in order, that started from an empty one. -/
def after (compute : Key → Except Fault Result) (capacity : Nat) (calls : List Key) :
    Cache Key Result :=
  calls.foldl (fun cache key => (cache.fetch compute key).2) (empty capacity)

theorem after_concat (compute : Key → Except Fault Result) (capacity : Nat) (calls : List Key)
    (key : Key) :
    after compute capacity (calls ++ [key]) =
      ((after compute capacity calls).fetch compute key).2 := by
  rw [after, List.foldl_append]
  rfl

/-! ## One call -/

variable {compute : Key → Except Fault Result} {cache : Cache Key Result} {key : Key}

/-- A call finds its key, or computes it with or without success. -/
theorem fetch_cases (compute : Key → Except Fault Result) (cache : Cache Key Result)
    (key : Key) :
    (∃ result, (key, result) ∈ cache.entries ∧
      cache.fetch compute key =
        (.ok result,
          { cache with
            entries := (key, result) :: cache.entries.filter fun entry => entry.1 != key
            hits := cache.hits + 1 })) ∨
    (key ∉ cache.keys ∧ ∃ fault, compute key = .error fault ∧
      cache.fetch compute key = (.error fault, { cache with misses := cache.misses + 1 })) ∨
    (key ∉ cache.keys ∧ ∃ result, compute key = .ok result ∧
      cache.fetch compute key =
        (.ok result,
          { cache with
            entries := ((key, result) :: cache.entries).take cache.capacity
            misses := cache.misses + 1 })) := by
  unfold fetch
  cases stored : cache.entries.lookup key with
  | some result =>
      obtain ⟨front, behind, entries, -⟩ := List.lookup_eq_some_iff.mp stored
      exact .inl ⟨result, by simp [entries], rfl⟩
  | none =>
      have absent : key ∉ cache.keys := by
        intro member
        obtain ⟨entry, entryMember, same⟩ := List.mem_map.mp member
        have other := List.lookup_eq_none_iff.mp stored entry entryMember
        simp [same] at other
      cases computed : compute key with
      | error fault => exact .inr (.inl ⟨absent, fault, rfl, rfl⟩)
      | ok result => exact .inr (.inr ⟨absent, result, rfl, rfl⟩)

/-- A call is a hit exactly if its key is held. -/
theorem hits_fetch (key : Key) :
    (cache.fetch compute key).2.hits = cache.hits + 1 ↔ key ∈ cache.keys := by
  rcases fetch_cases compute cache key with ⟨result, stored, reply⟩ |
    ⟨absent, fault, -, reply⟩ | ⟨absent, result, -, reply⟩
  · rw [reply]
    have held : key ∈ cache.keys := List.mem_map_of_mem stored
    simp only [held]
  · simp [reply, absent]
  · simp [reply, absent]

/-! ## A history of calls -/

/-- A store agrees with the calls that were made on it: what it holds was computed, and
it holds the last keys that were called with success. -/
structure Follows (compute : Key → Except Fault Result) (capacity : Nat) (calls : List Key)
    (cache : Cache Key Result) : Prop where
  bounded : cache.capacity = capacity
  faithful : ∀ entry ∈ cache.entries, compute entry.1 = .ok entry.2
  recent : cache.keys = (byLastCall (calls.filter (succeeds compute))).take capacity
  counted : cache.hits + cache.misses = calls.length

namespace Follows

variable {capacity : Nat} {calls : List Key}

theorem empty (compute : Key → Except Fault Result) (capacity : Nat) :
    Follows compute capacity [] (Cache.empty capacity : Cache Key Result) where
  bounded := rfl
  faithful := by
    intro entry member
    cases member
  recent := (List.take_nil).symm
  counted := rfl

/-- A key is held exactly if it succeeds and was called, and fewer other keys than fit
were called with success since. -/
theorem mem_keys (follows : Follows compute capacity calls cache) (key : Key) :
    key ∈ cache.keys ↔
      succeeds compute key = true ∧ key ∈ calls ∧
        ((callsSince key calls).filter (succeeds compute)).dedup.length < capacity := by
  rw [follows.recent, mem_take_byLastCall, List.mem_filter]
  constructor
  · rintro ⟨⟨called, success⟩, fits⟩
    rw [callsSince_filter success called] at fits
    exact ⟨success, called, fits⟩
  · rintro ⟨success, called, fits⟩
    rw [callsSince_filter success called]
    exact ⟨⟨called, success⟩, fits⟩

/-- A call with success moves its key to the front of the history. -/
theorem recent_concat (follows : Follows compute capacity calls cache)
    (success : succeeds compute key = true) :
    (byLastCall ((calls ++ [key]).filter (succeeds compute))).take capacity =
      (key :: cache.keys.filter (· != key)).take capacity := by
  rw [List.filter_append, List.filter_singleton, success, Bool.cond_true, byLastCall_concat,
    take_moved_to_front (nodup_byLastCall _), ← follows.recent]

theorem length_keys_le (follows : Follows compute capacity calls cache) :
    cache.keys.length ≤ capacity := by
  rw [follows.recent]
  exact List.length_take_le _ _

/-- A call keeps the store in agreement with the history. -/
theorem fetch (follows : Follows compute capacity calls cache) (key : Key) :
    Follows compute capacity (calls ++ [key]) (cache.fetch compute key).2 := by
  have length : (calls ++ [key]).length = calls.length + 1 := List.length_append
  have counted := follows.counted
  rcases fetch_cases compute cache key with ⟨result, stored, reply⟩ |
    ⟨absent, fault, computed, reply⟩ | ⟨absent, result, computed, reply⟩
  · have computed := follows.faithful _ stored
    have held : key ∈ cache.keys := List.mem_map_of_mem stored
    rw [reply]
    refine ⟨follows.bounded, ?_, ?_, by dsimp only; omega⟩
    · intro entry member
      rcases List.mem_cons.mp member with rfl | earlier
      · exact computed
      · exact follows.faithful entry (List.mem_of_mem_filter earlier)
    · -- The key was held, so nothing is dropped.
      have fits : (key :: cache.keys.filter (· != key)).length ≤ capacity :=
        Nat.le_trans (List.length_filter_lt_length_iff_exists.mpr ⟨key, held, by simp⟩)
          follows.length_keys_le
      rw [follows.recent_concat (succeeds_of_ok computed), List.take_of_length_le fits]
      simp [keys, List.filter_map, Function.comp_def]
  · rw [reply]
    refine ⟨follows.bounded, follows.faithful, ?_, by dsimp only; omega⟩
    rw [List.filter_append, List.filter_singleton, succeeds_of_error computed, Bool.cond_false,
      List.append_nil]
    exact follows.recent
  · rw [reply]
    refine ⟨follows.bounded, ?_, ?_, by dsimp only; omega⟩
    · intro entry member
      rcases List.mem_cons.mp (List.mem_of_mem_take member) with rfl | earlier
      · exact computed
      · exact follows.faithful entry earlier
    · have others : cache.keys.filter (· != key) = cache.keys := by
        rw [List.filter_eq_self]
        intro other member
        rw [bne_iff_ne]
        exact ne_of_mem_of_not_mem member absent
      rw [follows.recent_concat (succeeds_of_ok computed), others]
      simp [keys, List.map_take, follows.bounded]

/-- A store that agrees with its history answers with what is computed. -/
theorem answer (follows : Follows compute capacity calls cache) (key : Key) :
    (cache.fetch compute key).1 = compute key := by
  rcases fetch_cases compute cache key with ⟨result, stored, reply⟩ |
    ⟨-, fault, computed, reply⟩ | ⟨-, result, computed, reply⟩
  · rw [reply]
    exact (follows.faithful _ stored).symm
  · rw [reply, computed]
  · rw [reply, computed]

/-- Two stores that hold the same keys, and only what is computed, hold the same
entries. -/
theorem entries_eq {calls' : List Key} {cache' : Cache Key Result}
    (follows : Follows compute capacity calls cache)
    (follows' : Follows compute capacity calls' cache') (same : cache.keys = cache'.keys) :
    cache.entries = cache'.entries := by
  have lengths : cache.entries.length = cache'.entries.length := by
    simpa [keys] using congrArg List.length same
  apply List.ext_getElem lengths
  intro place inside inside'
  have sameKey : cache.entries[place].1 = cache'.entries[place].1 := by
    simpa [keys, inside, inside'] using congrArg (fun held => held[place]?) same
  have computed := follows.faithful _ (List.getElem_mem inside)
  have computed' := follows'.faithful _ (List.getElem_mem inside')
  rw [← sameKey, computed] at computed'
  exact Prod.ext sameKey (Except.ok.inj computed')

end Follows

/-- The store after some calls agrees with them. -/
theorem follows_after (compute : Key → Except Fault Result) (capacity : Nat) (calls : List Key) :
    Follows compute capacity calls (after compute capacity calls) := by
  induction calls using List.reverseRecOn with
  | nil => exact .empty compute capacity
  | append_singleton earlier key inductionHypothesis =>
      rw [after_concat]
      exact inductionHypothesis.fetch key

/-- Calls that fault leave the entries as if they were not made. -/
theorem entries_after_filter (compute : Key → Except Fault Result) (capacity : Nat)
    (calls : List Key) :
    (after compute capacity (calls.filter (succeeds compute))).entries =
      (after compute capacity calls).entries := by
  have whole := follows_after compute capacity calls
  have part := follows_after compute capacity (calls.filter (succeeds compute))
  apply part.entries_eq whole
  rw [part.recent, whole.recent, List.filter_filter]
  simp only [Bool.and_self]

end SlotLogic.Cache
