import PluralForms.Proofs.KeyedList
import PluralForms.RecencyCache

/-!
# Laws of caches

A cache is seen through the value it has for each key.  Using a value changes nothing in that view;
storing one changes the value of its key and takes away those of the evicted keys.
-/

namespace PluralForms.RecencyCache

variable {κ α ε : Type} [DecidableEq κ] {cache : RecencyCache κ α} {key other : κ} {value : α}

/-! ## Entries that were used last -/

theorem key_not_mem_without (entries : List (κ × α)) (key : κ) :
    key ∉ (without entries key).map (·.1) := by
  simp [without]

theorem distinct_used {entries : List (κ × α)} (h : KeyedList.Distinct entries) (key : κ)
    (value : α) : KeyedList.Distinct (without entries key ++ [(key, value)]) := by
  rw [KeyedList.Distinct, List.map_append, List.map_singleton]
  have hkept : KeyedList.Distinct (without entries key) := h.sublist List.filter_sublist
  exact hkept.append (List.nodup_singleton key)
    (List.disjoint_singleton.mpr (key_not_mem_without entries key))

theorem mem_used_iff {entries : List (κ × α)} {found : α} :
    (other, found) ∈ without entries key ++ [(key, value)] ↔
      if other = key then found = value else (other, found) ∈ entries := by
  rw [List.mem_append, List.mem_singleton, without, List.mem_filter]
  by_cases hkey : other = key <;> simp [hkey]

/-! ## Distinct keys -/

omit [DecidableEq κ] in
theorem distinct_countMiss (h : KeyedList.Distinct cache.entries) :
    KeyedList.Distinct cache.countMiss.entries := h

theorem distinct_get (h : KeyedList.Distinct cache.entries) (key : κ) :
    KeyedList.Distinct (cache.get key).2.entries := by
  unfold get
  split
  · exact h
  · next value _ => exact distinct_used h key value

theorem distinct_store (h : KeyedList.Distinct cache.entries) (key : κ) (value : α) :
    KeyedList.Distinct (cache.store key value).1.entries :=
  (distinct_used h key value).sublist (List.drop_sublist _ _)

/-! ## The value of a key -/

theorem find?_eq_some_iff (h : KeyedList.Distinct cache.entries) :
    cache.find? key = some value ↔ (key, value) ∈ cache.entries :=
  h.find?_eq_some_iff

/-- Every key keeps its value when one of the values is used. -/
theorem find?_get (h : KeyedList.Distinct cache.entries) (key other : κ) :
    (cache.get key).2.find? other = cache.find? other := by
  cases hfind : cache.find? key with
  | none => rw [get_of_find?_eq_none hfind]
  | some value =>
      have hused : (cache.get key).2.entries = without cache.entries key ++ [(key, value)] := by
        rw [get, hfind]
      apply Option.ext
      intro found
      rw [find?_eq_some_iff (distinct_get h key), hused, mem_used_iff, ← find?_eq_some_iff h]
      split
      · next hkey =>
          rw [hkey, hfind, Option.some_inj]
          exact eq_comm
      · rfl

/-- After storing, the stored key has the new value, and the others have theirs unless they were
evicted. -/
theorem find?_store (h : KeyedList.Distinct cache.entries) {found : α} :
    (cache.store key value).1.find? other = some found ↔
      (if other = key then found = value else cache.find? other = some found) ∧
        other ∉ (cache.store key value).2 := by
  rw [find?_eq_some_iff (distinct_store h key value), find?_eq_some_iff h, ← mem_used_iff]
  exact (distinct_used h key value).mem_drop_iff _

theorem find?_store_of_evicted (h : KeyedList.Distinct cache.entries)
    (hevicted : other ∈ (cache.store key value).2) :
    (cache.store key value).1.find? other = none := by
  rw [Option.eq_none_iff_forall_ne_some]
  intro found hfound
  exact ((find?_store h).mp hfound).2 hevicted

/-! ## Requests -/

theorem getOrBuild_of_find?_eq_some (hfind : cache.find? key = some value) (build : Build κ α ε) :
    cache.getOrBuild key build = ((.ok value, (cache.get key).2), []) := by
  simp only [getOrBuild, get, hfind]

theorem getOrBuild_of_refused (hnone : cache.find? key = none) {build : Build κ α ε} {e : ε}
    {left : RecencyCache κ α} {journal : Journal κ}
    (hbuild : build cache.countMiss = ((.error e, left), journal)) :
    cache.getOrBuild key build = ((.error e, left), .building key :: journal) := by
  simp only [getOrBuild, get_of_find?_eq_none hnone, hbuild]

theorem getOrBuild_of_built (hnone : cache.find? key = none) {build : Build κ α ε}
    {left : RecencyCache κ α} {journal : Journal κ}
    (hbuild : build cache.countMiss = ((.ok value, left), journal)) :
    cache.getOrBuild key build =
      ((.ok value, (left.store key value).1),
        .building key :: journal ++ (left.store key value).2.map .evicted) := by
  simp only [getOrBuild, get_of_find?_eq_none hnone, hbuild]

end PluralForms.RecencyCache
