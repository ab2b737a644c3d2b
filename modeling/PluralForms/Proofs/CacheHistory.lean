import Mathlib.Data.Finset.Card
import Mathlib.Data.List.Dedup
import Mathlib.Data.List.DropRight
import PluralForms.Proofs.CacheLaws

/-!
# What a cache keeps, told from its history

Calls are made one after another, and the history says what each of them did.  A key is kept just
when it was used since the last clearing and, after that, fewer other keys than there is room for.
Its value is the one that was stored last.
-/

namespace PluralForms.RecencyCache

/-! ## Lists without their earlier repetitions -/

section Lists

variable {κ : Type} [DecidableEq κ] {keys : List κ} {key : κ}

theorem dedup_concat (keys : List κ) (key : κ) :
    (keys ++ [key]).dedup = keys.dedup.filter (· != key) ++ [key] := by
  induction keys with
  | nil => rfl
  | cons first others ih =>
      rw [List.cons_append]
      by_cases hkey : first = key
      · rw [List.dedup_cons_of_mem (by simp [hkey]), ih]
        by_cases hmem : first ∈ others
        · rw [List.dedup_cons_of_mem hmem]
        · rw [List.dedup_cons_of_notMem hmem]
          simp [hkey]
      · by_cases hmem : first ∈ others
        · rw [List.dedup_cons_of_mem (by simp [hmem]), ih, List.dedup_cons_of_mem hmem]
        · rw [List.dedup_cons_of_notMem (by simp [hmem, hkey]), ih, List.dedup_cons_of_notMem hmem]
          simp [hkey]

/-- Behind a key stand the keys that occur after it, each at its own last occurrence. -/
theorem exists_dedup_eq (hmem : key ∈ keys) :
    ∃ front, keys.dedup = front ++ key :: (keys.rtakeWhile (· != key)).dedup := by
  induction keys using List.reverseRecOn with
  | nil => cases hmem
  | append_singleton keys last ih =>
      rw [dedup_concat, List.rtakeWhile_concat]
      by_cases hlast : last = key
      · exact ⟨keys.dedup.filter (· != last), by simp [hlast]⟩
      · have hbefore : key ∈ keys := by
          simpa [Ne.symm hlast] using hmem
        obtain ⟨front, hfront⟩ := ih hbefore
        refine ⟨front.filter (· != last), ?_⟩
        rw [hfront, if_pos (by simp [hlast]), dedup_concat]
        simp [Ne.symm hlast]

theorem pairwise_dedup (keys : List κ) :
    keys.dedup.Pairwise fun first second => second ∈ keys.rtakeWhile (· != first) := by
  induction keys using List.reverseRecOn with
  | nil => exact .nil
  | append_singleton keys last ih =>
      have hlater : ∀ first, first ≠ last →
          (keys ++ [last]).rtakeWhile (· != first) = keys.rtakeWhile (· != first) ++ [last] := by
        intro first hne
        rw [List.rtakeWhile_concat, if_pos (by simp [hne.symm])]
      rw [dedup_concat, List.pairwise_append]
      refine ⟨?_, List.pairwise_singleton _ _, ?_⟩
      · refine (ih.filter _).imp_of_mem ?_
        intro first second hfirst _ hsecond
        rw [hlater first (by simpa using (List.mem_filter.mp hfirst).2)]
        exact List.mem_append_left _ hsecond
      · intro first hfirst second hsecond
        rw [hlater first (by simpa using (List.mem_filter.mp hfirst).2),
          List.mem_singleton.mp hsecond]
        exact List.mem_append_right _ List.mem_cons_self

omit [DecidableEq κ] in
theorem rtake_append_of_le {front back : List κ} {count : Nat} (h : count ≤ back.length) :
    (front ++ back).rtake count = back.rtake count := by
  have hdrop : (front ++ back).length - count = front.length + (back.length - count) := by
    rw [List.length_append]
    omega
  rw [List.rtake, List.rtake, hdrop, List.drop_append]
  simp

omit [DecidableEq κ] in
theorem rtake_of_length_le {count : Nat} (h : keys.length ≤ count) : keys.rtake count = keys := by
  rw [List.rtake, Nat.sub_eq_zero_of_le h, List.drop_zero]

omit [DecidableEq κ] in
/-- All of a back part is among the last ones where there is room for it. -/
theorem mem_rtake_append {front back : List κ} {count : Nat} (h : back.length ≤ count)
    (hmem : key ∈ back) : key ∈ (front ++ back).rtake count := by
  have hshort : (front ++ back).length - count ≤ front.length := by
    rw [List.length_append]
    omega
  rw [List.rtake, List.drop_append_of_le_length hshort]
  exact List.mem_append_right _ hmem

/-- The last keys of a list, after one of all keys was used, are what they become when it is used
among them alone. -/
theorem rtake_used (hnodup : keys.Nodup) (count : Nat) (key : κ) :
    ((keys.rtake count).filter (· != key) ++ [key]).rtake count =
      (keys.filter (· != key) ++ [key]).rtake count := by
  by_cases hshort : keys.length ≤ count
  · rw [rtake_of_length_le hshort]
  · have hsplit : keys = keys.take (keys.length - count) ++ keys.rtake count :=
      (List.take_append_drop _ keys).symm
    have hlength : (keys.rtake count).length = count := by
      rw [List.rtake, List.length_drop]
      omega
    have hkept : (keys.rtake count).Nodup := hnodup.sublist (List.drop_sublist _ _)
    -- The used key is at most one of the last keys, so the others leave no room for more.
    have hroom : count ≤ ((keys.rtake count).filter (· != key) ++ [key]).length := by
      rw [← hkept.erase_eq_filter, List.length_append, List.length_singleton, List.length_erase,
        hlength]
      split <;> omega
    conv => rhs; rw [hsplit, List.filter_append, List.append_assoc, rtake_append_of_le hroom]

/-- A key that is there takes no more room when it is used. -/
theorem length_used (hnodup : keys.Nodup) (hmem : key ∈ keys) :
    (keys.filter (· != key) ++ [key]).length = keys.length := by
  have hpos := List.length_pos_of_mem hmem
  rw [← hnodup.erase_eq_filter, List.length_append, List.length_singleton,
    List.length_erase_of_mem hmem]
  omega

/-- A key is among the last ones when fewer others occur after it. -/
theorem mem_rtake_dedup_iff {count : Nat} :
    key ∈ keys.dedup.rtake count ↔
      key ∈ keys ∧ (keys.rtakeWhile (· != key)).toFinset.card < count := by
  rw [List.card_toFinset]
  by_cases hmem : key ∈ keys
  · obtain ⟨front, hfront⟩ := exists_dedup_eq hmem
    rw [hfront]
    by_cases hlt : (keys.rtakeWhile (· != key)).dedup.length < count
    · have hkept : key ∈ (front ++ key :: (keys.rtakeWhile (· != key)).dedup).rtake count :=
        mem_rtake_append hlt List.mem_cons_self
      simp [hmem, hlt, hkept]
    · have hroom : count ≤ (keys.rtakeWhile (· != key)).dedup.length := by omega
      -- What stands behind the key takes all the room, and the key itself is not in it.
      have hlost : key ∉ (front ++ key :: (keys.rtakeWhile (· != key)).dedup).rtake count := by
        rw [← List.singleton_append, ← List.append_assoc, rtake_append_of_le hroom]
        intro hlast
        have hlater := List.mem_dedup.mp (List.mem_of_mem_drop hlast)
        simpa using List.mem_rtakeWhile_imp hlater
      simp [hmem, hlt, hlost]
  · have hnone : key ∉ keys.dedup.rtake count := by
      intro hkept
      exact hmem (List.mem_dedup.mp (List.mem_of_mem_drop hkept))
    simp [hmem, hnone]

end Lists

variable {κ α ε : Type}

/-! ## Calls -/

/-- A call that is made when no other is under way.  A build leaves the cache alone: it gives a
value or a refusal, and notes of its own. -/
inductive Call (κ α ε : Type) where
  | get (key : κ)
  | getOrBuild (key : κ) (built : Except ε α) (notes : Journal κ)
  | clear

inductive Event (κ α : Type) where
  /-- The value was there. -/
  | answered (key : κ) (value : α)
  /-- The value was built and stored. -/
  | stored (key : κ) (value : α)
  /-- No value was there, and none was stored. -/
  | missed (key : κ)
  | cleared
  deriving DecidableEq, Repr

section Calls

variable [DecidableEq κ]

/-- A value was built for a request just when the journal names the build. -/
def perform (cache : RecencyCache κ α) : Call κ α ε → Event κ α × RecencyCache κ α
  | .get key =>
      match cache.get key with
      | (some value, after) => (.answered key value, after)
      | (none, after) => (.missed key, after)
  | .getOrBuild key built notes =>
      match cache.getOrBuild key fun left => ((built, left), notes) with
      | ((.ok value, after), journal) =>
          (if .building key ∈ journal then .stored key value else .answered key value, after)
      | ((.error _, after), _) => (.missed key, after)
  | .clear => (.cleared, cache.clear)

def run (cache : RecencyCache κ α) : List (Call κ α ε) → List (Event κ α) × RecencyCache κ α
  | [] => ([], cache)
  | call :: calls =>
      let (event, after) := cache.perform call
      let (later, last) := after.run calls
      (event :: later, last)

inductive Performed (cache : RecencyCache κ α) : Event κ α → RecencyCache κ α → Prop where
  | answered {key : κ} {value : α} (hfind : cache.find? key = some value) :
      Performed cache (.answered key value) (cache.get key).2
  | stored {key : κ} {value : α} (hnone : cache.find? key = none) :
      Performed cache (.stored key value) (cache.countMiss.store key value).1
  | missed {key : κ} (hnone : cache.find? key = none) : Performed cache (.missed key) cache
  | refused {key : κ} (hnone : cache.find? key = none) :
      Performed cache (.missed key) cache.countMiss
  | cleared : Performed cache .cleared cache.clear

theorem get_of_find?_eq_some {cache : RecencyCache κ α} {key : κ} {value : α}
    (h : cache.find? key = some value) : cache.get key = (some value, (cache.get key).2) := by
  simp only [get, h]

theorem perform_get_of_found {cache : RecencyCache κ α} {key : κ} {value : α}
    (hfind : cache.find? key = some value) :
    cache.perform (.get key : Call κ α ε) = (.answered key value, (cache.get key).2) := by
  rw [perform, get_of_find?_eq_some hfind]

theorem perform_get_of_none {cache : RecencyCache κ α} {key : κ} (hnone : cache.find? key = none) :
    cache.perform (.get key : Call κ α ε) = (.missed key, cache) := by
  rw [perform, get_of_find?_eq_none hnone]

theorem perform_of_found {cache : RecencyCache κ α} {key : κ} {value : α}
    (hfind : cache.find? key = some value) (built : Except ε α) (notes : Journal κ) :
    cache.perform (.getOrBuild key built notes) = (.answered key value, (cache.get key).2) := by
  rw [perform, getOrBuild_of_find?_eq_some hfind]
  simp

theorem perform_of_refused {cache : RecencyCache κ α} {key : κ} (hnone : cache.find? key = none)
    (e : ε) (notes : Journal κ) :
    cache.perform (.getOrBuild key (.error e : Except ε α) notes) =
      (.missed key, cache.countMiss) := by
  rw [perform, getOrBuild_of_refused hnone rfl]

theorem perform_of_built {cache : RecencyCache κ α} {key : κ} (hnone : cache.find? key = none)
    (value : α) (notes : Journal κ) :
    cache.perform (.getOrBuild key (.ok value : Except ε α) notes) =
      (.stored key value, (cache.countMiss.store key value).1) := by
  rw [perform, getOrBuild_of_built hnone rfl]
  simp

theorem performed (cache : RecencyCache κ α) (call : Call κ α ε) :
    Performed cache (cache.perform call).1 (cache.perform call).2 := by
  cases call with
  | get key =>
      cases hfind : cache.find? key with
      | none =>
          rw [perform_get_of_none hfind]
          exact .missed hfind
      | some value =>
          rw [perform_get_of_found hfind]
          exact .answered hfind
  | getOrBuild key built notes =>
      cases hfind : cache.find? key with
      | none =>
          cases built with
          | error e =>
              rw [perform_of_refused hfind]
              exact .refused hfind
          | ok value =>
              rw [perform_of_built hfind]
              exact .stored hfind
      | some value =>
          rw [perform_of_found hfind]
          exact .answered hfind
  | clear => exact .cleared

end Calls

/-! ## Histories -/

namespace Event

def used? : Event κ α → Option κ
  | answered key _ | stored key _ => some key
  | missed _ | cleared => none

def clears : Event κ α → Bool
  | cleared => true
  | _ => false

def storedFor? [DecidableEq κ] (key : κ) : Event κ α → Option α
  | stored other value => if other = key then some value else none
  | _ => none

end Event

/-- The keys used since the last clearing, each as often as it was used. -/
def used (history : List (Event κ α)) : List κ :=
  (history.rtakeWhile fun event => !event.clears).filterMap Event.used?

theorem used_concat_of_used {history : List (Event κ α)} {event : Event κ α} {key : κ}
    (hused : event.used? = some key) : used (history ++ [event]) = used history ++ [key] := by
  have hclears : event.clears = false := by
    cases event <;> simp_all [Event.used?, Event.clears]
  simp [used, hclears, hused]

theorem used_concat_missed (history : List (Event κ α)) (key : κ) :
    used (history ++ [.missed key]) = used history := by
  simp [used, Event.clears, Event.used?]

theorem used_concat_cleared (history : List (Event κ α)) : used (history ++ [.cleared]) = [] := by
  simp [used, Event.clears]

section Recency

variable [DecidableEq κ] {capacity : Nat} {history : List (Event κ α)}
  {cache after : RecencyCache κ α} {key : κ} {value : α}

def usedSince (history : List (Event κ α)) (key : κ) : List κ :=
  (used history).rtakeWhile (· != key)

/-- A key was used since the last clearing, and after its last use fewer other keys than there is
room for. -/
def Recent (capacity : Nat) (history : List (Event κ α)) (key : κ) : Prop :=
  key ∈ used history ∧ (usedSince history key).toFinset.card < capacity

instance (capacity : Nat) (history : List (Event κ α)) (key : κ) :
    Decidable (Recent capacity history key) :=
  inferInstanceAs (Decidable (_ ∧ _))

def latest? (history : List (Event κ α)) (key : κ) : Option α :=
  (history.filterMap (·.storedFor? key)).getLast?

theorem latest?_concat_stored (history : List (Event κ α)) (key : κ) (value : α) :
    latest? (history ++ [.stored key value]) key = some value := by
  simp [latest?, Event.storedFor?]

theorem latest?_concat_of_eq_none {event : Event κ α} (h : event.storedFor? key = none) :
    latest? (history ++ [event]) key = latest? history key := by
  simp [latest?, h]

/-! ## What a history says of the cache -/

/-- The cache is the one that its history tells of. -/
structure Traces (capacity : Nat) (history : List (Event κ α)) (cache : RecencyCache κ α) :
    Prop where
  capacity_eq : cache.capacity = capacity
  keys_eq : cache.keys = (used history).dedup.rtake capacity
  latest?_eq {key : κ} {value : α} (hfind : cache.find? key = some value) :
    latest? history key = some value

namespace Traces

theorem nodup_keys (h : Traces capacity history cache) : cache.keys.Nodup := by
  rw [h.keys_eq]
  exact (List.nodup_dedup _).sublist (List.drop_sublist _ _)

theorem distinct (h : Traces capacity history cache) : KeyedList.Distinct cache.entries :=
  h.nodup_keys

theorem length_keys_le (h : Traces capacity history cache) : cache.keys.length ≤ capacity := by
  rw [h.keys_eq, List.rtake, List.length_drop]
  omega

theorem mem_keys_iff (h : Traces capacity history cache) :
    key ∈ cache.keys ↔ Recent capacity history key := by
  rw [h.keys_eq, mem_rtake_dedup_iff]
  rfl

theorem pairwise_keys (h : Traces capacity history cache) :
    cache.keys.Pairwise fun first second => second ∈ usedSince history first := by
  rw [h.keys_eq]
  exact (pairwise_dedup _).sublist (List.drop_sublist _ _)

theorem keys_used (h : Traces capacity history cache) {event : Event κ α}
    (hused : event.used? = some key) :
    (cache.keys.filter (· != key) ++ [key]).rtake capacity =
      (used (history ++ [event])).dedup.rtake capacity := by
  rw [used_concat_of_used hused, dedup_concat, h.keys_eq, rtake_used (List.nodup_dedup _)]

end Traces

theorem find?_isSome_iff : (cache.find? key).isSome ↔ key ∈ cache.keys := by
  rw [find?, Option.isSome_map, ← Option.ne_none_iff_isSome, Ne, KeyedList.find?_eq_none_iff,
    not_not]
  rfl

theorem keys_used (entries : List (κ × α)) (key : κ) (value : α) :
    (without entries key ++ [(key, value)]).map (·.1) =
      (entries.map (·.1)).filter (· != key) ++ [key] := by
  rw [List.map_append, without, List.filter_map]
  rfl

theorem keys_get (hfind : cache.find? key = some value) :
    (cache.get key).2.keys = cache.keys.filter (· != key) ++ [key] := by
  have hentries : (cache.get key).2.entries = without cache.entries key ++ [(key, value)] := by
    rw [get, hfind]
  rw [keys, hentries, keys_used]
  rfl

theorem keys_store (cache : RecencyCache κ α) (key : κ) (value : α) :
    (cache.store key value).1.keys =
      (cache.keys.filter (· != key) ++ [key]).rtake cache.capacity := by
  rw [keys, keys, ← keys_used cache.entries key value, List.rtake, List.length_map, ← List.map_drop]
  rfl

theorem Traces.nil (hentries : cache.entries = []) : Traces cache.capacity [] cache := by
  constructor
  · rfl
  · rw [keys, hentries, used, List.rtakeWhile_nil, List.filterMap_nil, List.dedup_nil,
      List.rtake_nil, List.map_nil]
  · intro key value hfind
    rw [find?, hentries] at hfind
    cases hfind

theorem Traces.missed (h : Traces capacity history cache)
    (hcapacity : after.capacity = cache.capacity) (hentries : after.entries = cache.entries) :
    Traces capacity (history ++ [.missed key]) after := by
  constructor
  · rw [hcapacity, h.capacity_eq]
  · rw [used_concat_missed, ← h.keys_eq, keys, hentries]
    rfl
  · intro other found hother
    rw [find?, hentries] at hother
    rw [latest?_concat_of_eq_none rfl]
    exact h.latest?_eq hother

/-- Every call moves the cache as its event moves the history. -/
theorem Traces.next (h : Traces capacity history cache) {event : Event κ α}
    (hcall : Performed cache event after) : Traces capacity (history ++ [event]) after := by
  cases hcall with
  | @answered key value hfind =>
      have hmem : key ∈ cache.keys := find?_isSome_iff.mp (by rw [hfind]; rfl)
      have hroom : (cache.keys.filter (· != key) ++ [key]).length ≤ capacity := by
        rw [length_used h.nodup_keys hmem]
        exact h.length_keys_le
      constructor
      · rw [capacity_get, h.capacity_eq]
      · rw [keys_get hfind, ← h.keys_used rfl, rtake_of_length_le hroom]
      · intro other found hother
        rw [find?_get h.distinct] at hother
        rw [latest?_concat_of_eq_none rfl]
        exact h.latest?_eq hother
  | @stored key value hnone =>
      constructor
      · exact h.capacity_eq
      · rw [keys_store, ← h.keys_used rfl]
        show (cache.keys.filter (· != key) ++ [key]).rtake cache.capacity = _
        rw [h.capacity_eq]
      · intro other found hother
        have hvalue := ((find?_store h.distinct).mp hother).1
        by_cases hkey : other = key
        · rw [if_pos hkey] at hvalue
          rw [hkey, hvalue, latest?_concat_stored]
        · rw [if_neg hkey] at hvalue
          have hnone : (Event.stored key value).storedFor? other = none := by
            simp [Event.storedFor?, Ne.symm hkey]
          rw [latest?_concat_of_eq_none hnone]
          exact h.latest?_eq hvalue
  | missed => exact h.missed rfl rfl
  | refused => exact h.missed rfl rfl
  | cleared =>
      constructor
      · exact h.capacity_eq
      · rw [used_concat_cleared, List.dedup_nil, List.rtake_nil]
        rfl
      · intro other found hother
        cases hother

theorem Traces.run (h : Traces capacity history cache) (calls : List (Call κ α ε)) :
    Traces capacity (history ++ (cache.run calls).1) (cache.run calls).2 := by
  induction calls generalizing history cache with
  | nil => simpa [RecencyCache.run] using h
  | cons call calls ih =>
      have hlater := ih (h.next (cache.performed call))
      rw [List.append_assoc] at hlater
      exact hlater

/-! ## What is answered from the cache -/

theorem get_fst (cache : RecencyCache κ α) (key : κ) : (cache.get key).1 = cache.find? key := by
  cases hfind : cache.find? key with
  | none => rw [get_of_find?_eq_none hfind]
  | some value => rw [get_of_find?_eq_some hfind]

theorem Traces.exists_find?_iff (h : Traces capacity history cache) (key : κ) :
    (∃ value, cache.find? key = some value) ↔ Recent capacity history key := by
  rw [← h.mem_keys_iff, ← find?_isSome_iff, Option.isSome_iff_exists]

/-- A request that finds no value starts with a build. -/
theorem building_mem_getOrBuild (hnone : cache.find? key = none) (build : Build κ α ε) :
    .building key ∈ (cache.getOrBuild key build).2 := by
  simp only [getOrBuild, get_of_find?_eq_none hnone]
  split <;> simp

theorem building_not_mem_iff (cache : RecencyCache κ α) (key : κ) (build : Build κ α ε) :
    .building key ∉ (cache.getOrBuild key build).2 ↔ ∃ value, cache.find? key = some value := by
  cases hfind : cache.find? key with
  | none => simp [building_mem_getOrBuild hfind build]
  | some value => simp [getOrBuild_of_find?_eq_some hfind build]

/-- A new cache, after any calls, answers for the keys of recent use and no others; what it answers
was stored last, and its keys stand in the order of their last use.  Looking for a value and
requesting it agree, whatever the build would do. -/
theorem answers_by_recency (capacity : Int) (hpos : 1 ≤ capacity) :
    ∃ start : RecencyCache κ α, ofCapacity? capacity = .ok start ∧
      ∀ calls : List (Call κ α ε),
        let history := (start.run calls).1
        let cache := (start.run calls).2
        (∀ key, (∃ value, (cache.get key).1 = some value) ↔
            Recent capacity.toNat history key) ∧
          (∀ key (build : Build κ α ε), .building key ∉ (cache.getOrBuild key build).2 ↔
            Recent capacity.toNat history key) ∧
          (∀ key value, (cache.get key).1 = some value → latest? history key = some value) ∧
          (∀ key (build : Build κ α ε), Recent capacity.toNat history key →
            ∃ value, latest? history key = some value ∧
              (cache.getOrBuild key build).1.1 = .ok value) ∧
          (∀ key, key ∈ cache.keys ↔ Recent capacity.toNat history key) ∧
          cache.keys.Nodup ∧
          cache.keys.Pairwise fun first second => second ∈ usedSince history first := by
  let start : RecencyCache κ α := { capacity := capacity.toNat, capacity_pos := by omega }
  have hstart : ofCapacity? capacity = .ok start := by
    rw [ofCapacity?, dif_pos (by omega)]
  refine ⟨start, hstart, ?_⟩
  intro calls history cache
  have hrun : Traces capacity.toNat history cache := (Traces.nil rfl : Traces _ [] start).run calls
  refine ⟨?_, ?_, ?_, ?_, fun key => hrun.mem_keys_iff, hrun.nodup_keys, hrun.pairwise_keys⟩
  · intro key
    rw [get_fst]
    exact hrun.exists_find?_iff key
  · intro key build
    rw [building_not_mem_iff]
    exact hrun.exists_find?_iff key
  · intro key value hget
    rw [get_fst] at hget
    exact hrun.latest?_eq hget
  · intro key build hrecent
    obtain ⟨value, hfind⟩ := (hrun.exists_find?_iff key).mpr hrecent
    refine ⟨value, hrun.latest?_eq hfind, ?_⟩
    rw [getOrBuild_of_find?_eq_some hfind]

end Recency

/-- Room for two: the value of 1 was used again, a build for 3 was refused, and the value of 4 takes
the place of that of 2. -/
theorem answers_by_recency_two :
    (1 : Int) ≤ 2 ∧ ∃ start : RecencyCache Nat Nat, ofCapacity? 2 = .ok start ∧
      let cache := (start.run ([.getOrBuild 1 (.ok 10) [], .getOrBuild 2 (.ok 20) [], .get 1,
        .getOrBuild 3 (.error "refused") [], .getOrBuild 4 (.ok 40) []] :
          List (Call Nat Nat String))).2
      (∃ value, (cache.get 1).1 = some value) ∧ (¬∃ value, (cache.get 2).1 = some value) ∧
        cache.keys = [1, 4] := by
  refine ⟨by decide, ?_⟩
  obtain ⟨start, hstart, htold⟩ :=
    answers_by_recency (κ := Nat) (α := Nat) (ε := String) 2 (by decide)
  refine ⟨start, hstart, ?_⟩
  cases hstart
  obtain ⟨hget, -⟩ := htold [.getOrBuild 1 (.ok 10) [], .getOrBuild 2 (.ok 20) [], .get 1,
    .getOrBuild 3 (.error "refused") [], .getOrBuild 4 (.ok 40) []]
  exact ⟨(hget 1).mpr (by decide), fun hanswer => absurd ((hget 2).mp hanswer) (by decide), by rfl⟩

end PluralForms.RecencyCache
