import PluralForms.Proofs.CacheHistory

/-!
# What a cache counts

Every call leaves a receipt: whether a value was answered, whether a build was started, and which
keys were evicted.  The counts of a cache, and the number of its values, are those of the receipts
since it was last cleared.
-/

namespace PluralForms

def Record.evicted? {κ : Type} : Record κ → Option κ
  | evicted key => some key
  | _ => none

theorem Record.filterMap_evicted? {κ : Type} (keys : List κ) :
    (keys.map Record.evicted).filterMap Record.evicted? = keys := by
  rw [List.filterMap_map]
  exact List.filterMap_some

namespace RecencyCache

variable {κ α ε : Type}

/-! ## Receipts -/

/-- What the answer to a call and its records tell. -/
structure Receipt (κ : Type) where
  clears : Bool := false
  /-- A value was given to the caller. -/
  answered : Bool := false
  /-- A build was started. -/
  started : Bool := false
  /-- The keys recorded as evicted. -/
  evicted : List κ := []
  deriving DecidableEq, Repr

namespace Receipt

def hit (receipt : Receipt κ) : Bool := receipt.answered && !receipt.started

def built (receipt : Receipt κ) : Bool := receipt.answered && receipt.started

end Receipt

section Receipts

variable [DecidableEq κ]

/-- The records of a request begin with the start of the build and the notes of the build itself;
only what stands behind them is said of this cache. -/
def receipt (cache : RecencyCache κ α) : Call κ α ε → Receipt κ
  | .get key => { answered := (cache.get key).1.isSome }
  | .getOrBuild key built notes =>
      let result := cache.getOrBuild key fun left => ((built, left), notes)
      { answered := result.1.1.isOk
        started := result.2.head? = some (.building key)
        evicted := (result.2.drop (notes.length + 1)).filterMap Record.evicted? }
  | .clear => { clears := true }

def receipts (cache : RecencyCache κ α) : List (Call κ α ε) → List (Receipt κ)
  | [] => []
  | call :: calls => cache.receipt call :: (cache.perform call).2.receipts calls

/-- The receipts since the last clearing. -/
def sinceClear (receipts : List (Receipt κ)) : List (Receipt κ) :=
  receipts.rtakeWhile fun receipt => !receipt.clears

/-- All that a call can do, with its receipt. -/
inductive Billed (cache : RecencyCache κ α) : Receipt κ → RecencyCache κ α → Prop where
  | hit {key : κ} {value : α} (hfind : cache.find? key = some value) :
      Billed cache { answered := true } (cache.get key).2
  | absent : Billed cache {} cache
  | built {key : κ} {value : α} (hnone : cache.find? key = none) :
      Billed cache
        { answered := true, started := true, evicted := (cache.countMiss.store key value).2 }
        (cache.countMiss.store key value).1
  | refused : Billed cache { started := true } cache.countMiss
  | cleared : Billed cache { clears := true } cache.clear

variable {cache : RecencyCache κ α} {key : κ} {value : α}

theorem receipt_get (cache : RecencyCache κ α) (key : κ) :
    cache.receipt (.get key : Call κ α ε) = { answered := (cache.find? key).isSome } := by
  rw [receipt, get_fst]

theorem receipt_of_found (hfind : cache.find? key = some value) (built : Except ε α)
    (notes : Journal κ) :
    cache.receipt (.getOrBuild key built notes) = { answered := true } := by
  simp [receipt, getOrBuild_of_find?_eq_some hfind, Except.isOk, Except.toBool]

theorem receipt_of_refused (hnone : cache.find? key = none) (e : ε) (notes : Journal κ) :
    cache.receipt (.getOrBuild key (.error e : Except ε α) notes) = { started := true } := by
  have hresult : cache.getOrBuild key (fun left => ((.error e, left), notes)) =
      ((.error e, cache.countMiss), .building key :: notes) := getOrBuild_of_refused hnone rfl
  simp [receipt, hresult, Except.isOk, Except.toBool]

theorem receipt_of_built (hnone : cache.find? key = none) (value : α) (notes : Journal κ) :
    cache.receipt (.getOrBuild key (.ok value : Except ε α) notes) =
      { answered := true, started := true, evicted := (cache.countMiss.store key value).2 } := by
  have hresult : cache.getOrBuild key (fun left => (((.ok value : Except ε α), left), notes)) =
      ((.ok value, (cache.countMiss.store key value).1),
        .building key :: notes ++ (cache.countMiss.store key value).2.map .evicted) :=
    getOrBuild_of_built hnone rfl
  have hbehind : (Record.building key :: notes ++
      (cache.countMiss.store key value).2.map Record.evicted).drop (notes.length + 1) =
        (cache.countMiss.store key value).2.map Record.evicted := by
    simp
  simp only [receipt, hresult, hbehind, Record.filterMap_evicted?]
  simp [Except.isOk, Except.toBool]

theorem billed (cache : RecencyCache κ α) (call : Call κ α ε) :
    Billed cache (cache.receipt call) (cache.perform call).2 := by
  cases call with
  | get key =>
      rw [receipt_get]
      cases hfind : cache.find? key with
      | none =>
          rw [perform_get_of_none hfind]
          exact .absent
      | some value =>
          rw [perform_get_of_found hfind]
          exact .hit hfind
  | getOrBuild key built notes =>
      cases hfind : cache.find? key with
      | none =>
          cases built with
          | error e =>
              rw [receipt_of_refused hfind, perform_of_refused hfind]
              exact .refused
          | ok value =>
              rw [receipt_of_built hfind, perform_of_built hfind]
              exact .built hfind
      | some value =>
          rw [receipt_of_found hfind, perform_of_found hfind]
          exact .hit hfind
  | clear => exact .cleared

/-! ## Sizes -/

omit [DecidableEq κ] in
theorem size_eq_length_keys (cache : RecencyCache κ α) : cache.size = cache.keys.length := by
  rw [size, keys, List.length_map]

theorem size_get (hdistinct : KeyedList.Distinct cache.entries)
    (hfind : cache.find? key = some value) : (cache.get key).2.size = cache.size := by
  have hnodup : cache.keys.Nodup := hdistinct
  have hmem : key ∈ cache.keys := find?_isSome_iff.mp (by rw [hfind]; rfl)
  rw [size_eq_length_keys, size_eq_length_keys, keys_get hfind, length_used hnodup hmem]

/-- What is stored and what is evicted for it are all that was there, and one more. -/
theorem size_store_add (hnone : cache.find? key = none) (value : α) :
    (cache.store key value).1.size + (cache.store key value).2.length = cache.size + 1 := by
  have hkept : without cache.entries key = cache.entries := by
    rw [without, List.filter_eq_self]
    intro entry hmem
    have hne := KeyedList.find?_eq_none_iff.mp (Option.map_eq_none_iff.mp hnone)
    rw [bne_iff_ne]
    rintro rfl
    exact hne (List.mem_map_of_mem hmem)
  simp only [store, size, hkept, List.length_drop, List.length_map, List.length_take,
    List.length_append, List.length_singleton]
  omega

theorem not_mem_keys_of_evicted (hdistinct : KeyedList.Distinct cache.entries) {other : κ}
    (hevicted : other ∈ (cache.store key value).2) : other ∉ (cache.store key value).1.keys := by
  rw [← find?_isSome_iff, find?_store_of_evicted hdistinct hevicted]
  exact Bool.false_ne_true

/-- There is room for the value that is stored, so only what was there before is evicted. -/
theorem mem_keys_of_evicted {other : κ} (hevicted : other ∈ (cache.store key value).2) :
    other ∈ cache.keys := by
  have hpos := cache.capacity_pos
  have hsurplus : (without cache.entries key ++ [(key, value)]).length - cache.capacity ≤
      (without cache.entries key).length := by
    rw [List.length_append, List.length_singleton]
    omega
  rw [store, List.take_append_of_le_length hsurplus] at hevicted
  exact (((List.take_sublist _ _).trans List.filter_sublist).map _).mem hevicted

/-! ## Balances -/

/-- The counts of a cache are those of some receipts; every value that was built is still there or
was evicted. -/
structure Balances (receipts : List (Receipt κ)) (cache : RecencyCache κ α) : Prop where
  hits_eq : cache.hits = receipts.countP Receipt.hit
  misses_eq : cache.misses = receipts.countP Receipt.started
  built_eq : receipts.countP Receipt.built =
    cache.size + (receipts.flatMap Receipt.evicted).length

omit [DecidableEq κ] in
theorem sinceClear_concat {receipt : Receipt κ} (hclears : receipt.clears = false)
    (receipts : List (Receipt κ)) :
    sinceClear (receipts ++ [receipt]) = sinceClear receipts ++ [receipt] := by
  rw [sinceClear, List.rtakeWhile_concat, if_pos (by rw [hclears]; rfl)]
  rfl

omit [DecidableEq κ] in
theorem sinceClear_concat_clears {receipt : Receipt κ} (hclears : receipt.clears = true)
    (receipts : List (Receipt κ)) : sinceClear (receipts ++ [receipt]) = [] := by
  rw [sinceClear, List.rtakeWhile_concat, if_neg (by rw [hclears]; exact Bool.false_ne_true)]

/-- Every call moves the counts as its receipt does. -/
theorem Balances.next {receipts : List (Receipt κ)} {receipt : Receipt κ}
    {after : RecencyCache κ α} (h : Balances (sinceClear receipts) cache)
    (hdistinct : KeyedList.Distinct cache.entries) (hcall : Billed cache receipt after) :
    Balances (sinceClear (receipts ++ [receipt])) after := by
  obtain ⟨hhits, hmisses, hbuilt⟩ := h
  cases hcall with
  | @hit key value hfind =>
      rw [sinceClear_concat rfl]
      constructor
      · simp [get, hfind, hhits, Receipt.hit]
      · simp [get, hfind, hmisses]
      · simp [size_get hdistinct hfind, hbuilt, Receipt.built]
  | absent =>
      rw [sinceClear_concat rfl]
      constructor <;> simp [hhits, hmisses, hbuilt, Receipt.hit, Receipt.built]
  | @built key value hnone =>
      have hsize : (cache.countMiss.store key value).1.size +
          (cache.countMiss.store key value).2.length = cache.size + 1 := size_store_add hnone value
      rw [sinceClear_concat rfl]
      constructor
      · simp [hhits, Receipt.hit, store, countMiss]
      · simp [hmisses, store, countMiss]
      · rw [List.countP_append, List.flatMap_append, List.length_append, hbuilt,
          List.countP_singleton, List.flatMap_singleton]
        simp only [Receipt.built, Bool.and_self, if_true]
        omega
  | refused =>
      rw [sinceClear_concat rfl]
      constructor
      · simp [hhits, Receipt.hit, countMiss]
      · simp [hmisses, countMiss]
      · simp [hbuilt, Receipt.built, countMiss, size]
  | cleared =>
      rw [sinceClear_concat_clears rfl]
      exact ⟨rfl, rfl, rfl⟩

theorem Balances.run {receipts : List (Receipt κ)} {capacity : Nat} {history : List (Event κ α)}
    (h : Balances (sinceClear receipts) cache) (htraces : Traces capacity history cache)
    (calls : List (Call κ α ε)) :
    Balances (sinceClear (receipts ++ cache.receipts calls)) (cache.run calls).2 := by
  induction calls generalizing receipts history cache with
  | nil => simpa [RecencyCache.run, RecencyCache.receipts] using h
  | cons call calls ih =>
      have hlater := ih (h.next htraces.distinct (cache.billed call))
        (htraces.next (cache.performed call))
      rw [List.append_assoc] at hlater
      exact hlater

/-! ## Refused builds -/

def Call.Requests (key : κ) : Call κ α ε → Prop
  | .getOrBuild other _ _ => other = key
  | _ => False

theorem started_iff (cache : RecencyCache κ α) (key : κ) (built : Except ε α) (notes : Journal κ) :
    (cache.receipt (.getOrBuild key built notes)).started = true ↔ cache.find? key = none := by
  cases hfind : cache.find? key with
  | none =>
      cases built with
      | error e => simp [receipt_of_refused hfind]
      | ok value => simp [receipt_of_built hfind]
  | some value => simp [receipt_of_found hfind]

/-- What is not there comes only by a request for it. -/
theorem find?_perform_eq_none (hdistinct : KeyedList.Distinct cache.entries)
    (hnone : cache.find? key = none) {call : Call κ α ε} (hother : ¬call.Requests key) :
    (cache.perform call).2.find? key = none := by
  cases call with
  | get other =>
      cases hfind : cache.find? other with
      | none => rw [perform_get_of_none hfind, hnone]
      | some value => rw [perform_get_of_found hfind, find?_get hdistinct, hnone]
  | getOrBuild other built notes =>
      have hne : key ≠ other := Ne.symm hother
      cases hfind : cache.find? other with
      | some value => rw [perform_of_found hfind, find?_get hdistinct, hnone]
      | none =>
          cases built with
          | error e =>
              rw [perform_of_refused hfind]
              exact hnone
          | ok value =>
              rw [perform_of_built hfind, Option.eq_none_iff_forall_ne_some]
              intro found hfound
              have hbefore := ((find?_store hdistinct).mp hfound).1
              rw [if_neg hne] at hbefore
              exact absurd (hnone.symm.trans hbefore) (Option.some_ne_none found).symm
  | clear => rfl

theorem find?_run_eq_none {capacity : Nat} {history : List (Event κ α)}
    (htraces : Traces capacity history cache) (hnone : cache.find? key = none)
    {calls : List (Call κ α ε)} (hothers : ∀ call ∈ calls, ¬call.Requests key) :
    (cache.run calls).2.find? key = none := by
  induction calls generalizing history cache with
  | nil => exact hnone
  | cons call calls ih =>
      obtain ⟨hother, hlater⟩ := List.forall_mem_cons.mp hothers
      exact ih (htraces.next (cache.performed call))
        (find?_perform_eq_none htraces.distinct hnone hother) hlater

/-! ## The whole account -/

theorem length_evicted_le (hfits : cache.size ≤ cache.capacity) (key : κ) (value : α) :
    (cache.store key value).2.length ≤ 1 := by
  have hkept : (without cache.entries key).length ≤ cache.size := List.length_filter_le _ _
  simp only [store, List.length_map, List.length_take, List.length_append, List.length_singleton]
  omega

/-- A call evicts at most one key, which was stored before and is not stored after it. -/
theorem Billed.evicted {receipt : Receipt κ} {after : RecencyCache κ α}
    (hcall : Billed cache receipt after) (hdistinct : KeyedList.Distinct cache.entries)
    (hfits : cache.size ≤ cache.capacity) :
    receipt.evicted.length ≤ 1 ∧
      ∀ key ∈ receipt.evicted, key ∈ cache.keys ∧ key ∉ after.keys := by
  cases hcall with
  | @built key value hnone =>
      refine ⟨length_evicted_le hfits key value, ?_⟩
      intro other hevicted
      exact ⟨mem_keys_of_evicted hevicted, not_mem_keys_of_evicted hdistinct hevicted⟩
  | _ => exact ⟨Nat.zero_le _, List.forall_mem_nil _⟩

/-- A new cache, after any calls, has distinct keys, no more than there is room for; it counted the
answers it had and the builds it started since it was last cleared, and what was built since then
is still there or was evicted.  Looking for what is not there counts nothing.  A refused build
counts as started and changes nothing else; the next request for its key starts another. -/
theorem counts_of_run (capacity : Int) (hpos : 1 ≤ capacity) :
    ∃ start : RecencyCache κ α, ofCapacity? capacity = .ok start ∧
      ∀ calls : List (Call κ α ε),
        let since := sinceClear (start.receipts calls)
        let cache := (start.run calls).2
        (cache.keys.Nodup ∧ cache.keys.length = cache.size ∧ (cache.size : Int) ≤ capacity) ∧
          cache.hits = since.countP Receipt.hit ∧
          cache.misses = since.countP Receipt.started ∧
          since.countP Receipt.built = cache.size + (since.flatMap Receipt.evicted).length ∧
          (∀ call : Call κ α ε, (cache.receipt call).evicted.length ≤ 1 ∧
            ∀ key ∈ (cache.receipt call).evicted,
              key ∈ cache.keys ∧ key ∉ (cache.perform call).2.keys) ∧
          (∀ key, (cache.get key).1 = none → (cache.get key).2 = cache) ∧
          ∀ key (e : ε) (notes : Journal κ),
            let call : Call κ α ε := .getOrBuild key (.error e) notes
            (cache.receipt call).started = true →
              (cache.perform call).2 = { cache with misses := cache.misses + 1 } ∧
              ∀ between : List (Call κ α ε), (∀ other ∈ between, ¬other.Requests key) →
                ∀ (built : Except ε α) (later : Journal κ),
                  (((cache.perform call).2.run between).2.receipt
                    (.getOrBuild key built later)).started = true := by
  let start : RecencyCache κ α := { capacity := capacity.toNat, capacity_pos := by omega }
  have hstart : ofCapacity? capacity = .ok start := by
    rw [ofCapacity?, dif_pos (by omega)]
  refine ⟨start, hstart, ?_⟩
  intro calls since cache
  have htraced : Traces start.capacity [] start := Traces.nil rfl
  have hopen : Balances (sinceClear []) start := ⟨rfl, rfl, rfl⟩
  have hrun : Traces capacity.toNat _ cache := htraced.run calls
  obtain ⟨hhits, hmisses, hbuilt⟩ : Balances since cache := hopen.run htraced calls
  have hroom : cache.size ≤ cache.capacity := by
    rw [size_eq_length_keys, hrun.capacity_eq]
    exact hrun.length_keys_le
  have hcapacity : (cache.size : Int) ≤ capacity := by
    have hcount := hrun.capacity_eq
    omega
  refine ⟨⟨hrun.nodup_keys, (size_eq_length_keys cache).symm, hcapacity⟩, hhits, hmisses, hbuilt,
    fun call => (cache.billed call).evicted hrun.distinct hroom, ?_, ?_⟩
  · intro key habsent
    rw [get_fst] at habsent
    rw [get_of_find?_eq_none habsent]
  · intro key e notes call hstarted
    have hnone := (cache.started_iff key (.error e) notes).mp hstarted
    have hafter : (cache.perform call).2 = cache.countMiss := by
      rw [perform_of_refused hnone]
    refine ⟨hafter, ?_⟩
    intro between hothers built later
    rw [started_iff]
    have hstill : (cache.perform call).2.find? key = none := by
      rw [hafter]
      exact hnone
    exact find?_run_eq_none (hrun.next (cache.performed call)) hstill hothers

end Receipts

/-- Room for two, and a first value from before the clearing: of the values of 1, 2 and 4 one was
evicted, the build for 3 was refused, and it is started again after 1 was looked for. -/
theorem counts_of_run_two :
    (1 : Int) ≤ 2 ∧ ∃ start : RecencyCache Nat Nat, ofCapacity? 2 = .ok start ∧
      let cache := (start.run ([.getOrBuild 9 (.ok 90) [], .clear, .getOrBuild 1 (.ok 10) [],
        .getOrBuild 2 (.ok 20) [], .get 1, .get 5, .getOrBuild 3 (.error "refused") [],
        .getOrBuild 4 (.ok 40) []] : List (Call Nat Nat String))).2
      cache.hits = 1 ∧ cache.misses = 4 ∧ cache.size + 1 = 3 ∧
        (((cache.perform (.getOrBuild 3 (.error "refused") [] : Call Nat Nat String)).2.run
          [(.get 1 : Call Nat Nat String)]).2.receipt
            (.getOrBuild 3 (.ok 30) [] : Call Nat Nat String)).started = true := by
  refine ⟨by decide, ?_⟩
  obtain ⟨start, hstart, htold⟩ :=
    counts_of_run (κ := Nat) (α := Nat) (ε := String) 2 (by decide)
  refine ⟨start, hstart, ?_⟩
  cases hstart
  obtain ⟨-, hhits, hmisses, hbuilt, -, -, hrefused⟩ := htold [.getOrBuild 9 (.ok 90) [], .clear,
    .getOrBuild 1 (.ok 10) [], .getOrBuild 2 (.ok 20) [], .get 1, .get 5,
    .getOrBuild 3 (.error "refused") [], .getOrBuild 4 (.ok 40) []]
  refine ⟨hhits, hmisses, hbuilt.symm, ?_⟩
  exact (hrefused 3 "refused" [] (by decide)).2 [.get 1] (by simp [Call.Requests]) (.ok 30) []

end RecencyCache

end PluralForms
