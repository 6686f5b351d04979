/-!
Contract: a store that keeps the most recently used results of a function.

Owns: the store with its counts, and the one operation on it.

The entries stand in the order of their last use, the most recent first. A
result that is found is a hit and becomes the most recent. Otherwise it is a
miss and the result is computed: it becomes the most recent entry, and the least
recent one is dropped if the store would grow past its capacity. A fault counts
as a miss and is not stored.

Does not own: the function whose results are stored.
-/

set_option autoImplicit false

namespace SlotLogic

/-- Results by key, the most recently used first. -/
structure Cache (Key Result : Type) where
  capacity : Nat
  entries : List (Key × Result)
  hits : Nat
  misses : Nat
deriving Repr

namespace Cache

variable {Key Result Fault : Type} [DecidableEq Key]

def empty (capacity : Nat) : Cache Key Result :=
  ⟨capacity, [], 0, 0⟩

def size (cache : Cache Key Result) : Nat :=
  cache.entries.length

/-- The result of a key, stored or computed, and the store afterwards. -/
def fetch (compute : Key → Except Fault Result) (cache : Cache Key Result) (key : Key) :
    Except Fault Result × Cache Key Result :=
  match cache.entries.lookup key with
  | some result =>
    (.ok result,
      { cache with
        entries := (key, result) :: cache.entries.filter fun entry => entry.1 != key
        hits := cache.hits + 1 })
  | none =>
    match compute key with
    | .error fault => (.error fault, { cache with misses := cache.misses + 1 })
    | .ok result =>
      (.ok result,
        { cache with
          entries := ((key, result) :: cache.entries).take cache.capacity
          misses := cache.misses + 1 })

end Cache

end SlotLogic
