import PluralForms.Journal

/-!
# Caches by recency of use

A cache keeps as many values as its capacity allows.  Its entries stand in the order of their latest
use, so what has to make room is in front.  It counts the requests it answered and the builds it
started.
-/

namespace PluralForms

def defaultCapacity : Nat := 256

structure RecencyCache (κ α : Type) where
  capacity : Nat := defaultCapacity
  capacity_pos : 0 < capacity := by decide
  /-- Keys and values, the one used least recently first. -/
  entries : List (κ × α) := []
  /-- Requests answered since the cache was last cleared. -/
  hits : Nat := 0
  /-- Builds started since then. -/
  misses : Nat := 0

namespace RecencyCache

variable {κ α ε : Type}

structure CapacityError where
  capacity : Int
  deriving DecidableEq, Repr

def CapacityError.message (_ : CapacityError) : String := "size must be positive"

def ofCapacity? (capacity : Int) : Except CapacityError (RecencyCache κ α) :=
  if h : 0 < capacity then .ok { capacity := capacity.toNat, capacity_pos := by omega }
  else .error ⟨capacity⟩

def size (cache : RecencyCache κ α) : Nat := cache.entries.length

/-- The stored keys, the one used least recently first. -/
def keys (cache : RecencyCache κ α) : List κ := cache.entries.map (·.1)

def countMiss (cache : RecencyCache κ α) : RecencyCache κ α :=
  { cache with misses := cache.misses + 1 }

def clear (cache : RecencyCache κ α) : RecencyCache κ α :=
  { cache with entries := [], hits := 0, misses := 0 }

variable [DecidableEq κ]

/-- The stored value of a key; this alone is no use of it. -/
def find? (cache : RecencyCache κ α) (key : κ) : Option α :=
  (cache.entries.find? fun entry => entry.1 == key).map (·.2)

def without (entries : List (κ × α)) (key : κ) : List (κ × α) :=
  entries.filter fun entry => entry.1 != key

def get (cache : RecencyCache κ α) (key : κ) : Option α × RecencyCache κ α :=
  match cache.find? key with
  | none => (none, cache)
  | some value =>
      (some value,
        { cache with
          entries := without cache.entries key ++ [(key, value)]
          hits := cache.hits + 1 })

/-- Stores a value as the one used last; the first ones make room for it, and their keys are
given back. -/
def store (cache : RecencyCache κ α) (key : κ) (value : α) : RecencyCache κ α × List κ :=
  let entries := without cache.entries key ++ [(key, value)]
  let surplus := entries.length - cache.capacity
  ({ cache with entries := entries.drop surplus }, (entries.take surplus).map (·.1))

abbrev Build (κ α ε : Type) :=
  RecencyCache κ α → (Except ε α × RecencyCache κ α) × Journal κ

/-- The stored value of a key, or else a value built for it.  The build may use the cache itself;
what it gives is stored in the cache that it leaves, and a refusal is not stored. -/
def getOrBuild (cache : RecencyCache κ α) (key : κ) (build : Build κ α ε) :
    (Except ε α × RecencyCache κ α) × Journal κ :=
  match cache.get key with
  | (some value, used) => ((.ok value, used), [])
  | (none, _) =>
      match build cache.countMiss with
      | ((.error e, left), journal) => ((.error e, left), .building key :: journal)
      | ((.ok value, left), journal) =>
          let (stored, evicted) := left.store key value
          ((.ok value, stored), .building key :: journal ++ evicted.map .evicted)

/-! ## Small facts -/

theorem capacity_get (cache : RecencyCache κ α) (key : κ) :
    (cache.get key).2.capacity = cache.capacity := by
  unfold get
  split <;> rfl

theorem get_of_find?_eq_none {cache : RecencyCache κ α} {key : κ} (h : cache.find? key = none) :
    cache.get key = (none, cache) := by
  simp [get, h]

theorem find?_store_self (cache : RecencyCache κ α) (key : κ) (value : α) :
    (cache.store key value).1.find? key = some value := by
  have hpos := cache.capacity_pos
  have hlen : (without cache.entries key ++ [(key, value)]).length - cache.capacity ≤
      (without cache.entries key).length := by
    simp only [List.length_append, List.length_singleton]
    omega
  simp only [store, find?]
  rw [List.drop_append_of_le_length hlen, List.find?_append]
  have hnone : ((without cache.entries key).drop
      ((without cache.entries key ++ [(key, value)]).length - cache.capacity)).find?
      (fun entry => entry.1 == key) = none := by
    rw [List.find?_eq_none]
    intro entry hmem
    have hkept := (List.mem_filter.mp (List.mem_of_mem_drop hmem)).2
    simpa using hkept
  rw [hnone]
  simp

end RecencyCache

end PluralForms
