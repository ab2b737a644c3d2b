import PluralForms.Proofs.CacheLaws
import PluralForms.SelectorPool

/-!
# Requests to a pool

A request is answered by a kept selector, by a built one, or by a refusal.  In a sound pool each
kept selector is the one that would be built for its key, so the answer does not tell which of these
it was.
-/

namespace PluralForms

/-- What the providers answer: always the same to the same question. -/
structure Directory where
  lookup : Provider.Id → String → String → Except LookupError RuleMap

namespace Directory

def provider (directory : Directory) (id : Provider.Id) : Provider where
  id := id
  lookup := directory.lookup id

/-- The selector of a key, read without any pool from the rules of its locale or of the nearest
known ancestor. -/
def selector (directory : Directory) (key : SelectorKey) : Except SelectorError Selector :=
  let resolved : _ × Journal SelectorKey :=
    (directory.provider key.provider).resolve key.locale key.kind.name
  match resolved.1 with
  | .error e => .error (.lookup e)
  | .ok (_, rules) =>
      let read : _ × Journal SelectorKey :=
        Selector.ofNamedKind key.locale key.kind.name rules
      read.1

end Directory

/-! ## What building leaves in the journal -/

def Record.isOfStorage {κ : Type} : Record κ → Bool
  | building _ | evicted _ => true
  | _ => false

def Journal.Quiet {κ : Type} (journal : Journal κ) : Prop :=
  ∀ record ∈ journal, record.isOfStorage = false

theorem Journal.Quiet.append {κ : Type} {first second : Journal κ} (hfirst : first.Quiet)
    (hsecond : second.Quiet) : Journal.Quiet (first ++ second) :=
  List.forall_mem_append.mpr ⟨hfirst, hsecond⟩

theorem Provider.quiet_firstKnown {κ : Type} (provider : Provider) (code kind : String)
    (candidates : List String) :
    Journal.Quiet (provider.firstKnown code kind candidates : _ × Journal κ).2 := by
  induction candidates with
  | nil => exact nofun
  | cons candidate others ih =>
      unfold firstKnown
      split
      · split
        · exact nofun
        · exact List.forall_mem_singleton.mpr rfl
      · exact nofun
      · exact List.forall_mem_cons.mpr ⟨rfl, ih⟩

theorem Selector.quiet_ofRules {κ : Type} (locale : String) (kind : RuleKind) (rules : RuleMap) :
    Journal.Quiet (ofRules locale kind rules : _ × Journal κ).2 := by
  unfold ofRules
  split
  · exact nofun
  · exact nofun
  · exact List.forall_mem_singleton.mpr rfl

namespace SelectorPool

theorem quiet_build {κ : Type} (provider : Provider) (locale : String) (kind : RuleKind) :
    Journal.Quiet (build provider locale kind : _ × Journal κ).2 := by
  have hresolve : Journal.Quiet (provider.resolve locale kind.name : _ × Journal κ).2 :=
    provider.quiet_firstKnown locale kind.name _
  unfold build
  split
  · next journal heq => rwa [heq] at hresolve
  · next source rules journal heq =>
      rw [heq] at hresolve
      have hrules : Journal.Quiet (Selector.ofRules locale kind rules : _ × Journal κ).2 :=
        Selector.quiet_ofRules locale kind rules
      split
      · next refused hread =>
          rw [hread] at hrules
          exact hresolve.append hrules
      · next selector refused hread =>
          rw [hread] at hrules
          exact (hresolve.append hrules).append (List.forall_mem_singleton.mpr rfl)

theorem build_eq (directory : Directory) (key : SelectorKey) :
    (build (directory.provider key.provider) key.locale key.kind : _ × Journal SelectorKey).1 =
      directory.selector key := by
  unfold build Directory.selector
  split
  · next heq => simp only [heq]
  · next heq =>
      simp only [heq, Selector.ofNamedKind, RuleKind.named_name]
      split
      · next hread => simp only [hread]
      · next hread => simp only [hread]

/-! ## What a request does -/

inductive Requested (directory : Directory) (pool : SelectorPool) (key : SelectorKey) :
    (Except SelectorError Stamped × SelectorPool) × Journal SelectorKey → Prop where
  | kept {stamped : Stamped} (hfind : pool.cache.find? key = some stamped) :
      Requested directory pool key
        ((.ok stamped, ⟨(pool.cache.get key).2, pool.requests + 1⟩), [])
  | refused {e : SelectorError} {notes : Journal SelectorKey}
      (hnone : pool.cache.find? key = none) (hbuilt : directory.selector key = .error e)
      (hnotes : notes.Quiet) :
      Requested directory pool key
        ((.error e, ⟨pool.cache.countMiss, pool.requests + 1⟩), .building key :: notes)
  | built {selector : Selector} {notes : Journal SelectorKey}
      (hnone : pool.cache.find? key = none) (hbuilt : directory.selector key = .ok selector)
      (hnotes : notes.Quiet) :
      Requested directory pool key
        ((.ok ⟨pool.requests, selector⟩,
            ⟨(pool.cache.countMiss.store key ⟨pool.requests, selector⟩).1, pool.requests + 1⟩),
          .building key :: notes ++
            (pool.cache.countMiss.store key ⟨pool.requests, selector⟩).2.map .evicted)

/-- What a pool does where it keeps nothing: it builds the selector of the key and stamps it. -/
def stampedBuild (directory : Directory) (pool : SelectorPool) (key : SelectorKey) :
    RecencyCache.Build SelectorKey Stamped SelectorError :=
  fun cache =>
    let built : _ × Journal SelectorKey :=
      build (directory.provider key.provider) key.locale key.kind
    ((built.1.map (Stamped.mk pool.requests), cache), built.2)

theorem request_eq (directory : Directory) (pool : SelectorPool) (id : Provider.Id) (code : String)
    (kind : RuleKind) :
    pool.request (directory.provider id) code kind.name =
      let key := ⟨id, Locale.normalize code, kind⟩
      let answered := pool.cache.getOrBuild key (stampedBuild directory pool key)
      ((answered.1.1, ⟨answered.1.2, pool.requests + 1⟩), answered.2) := by
  simp only [request, RuleKind.named_name]
  rfl

theorem stampedBuild_eq (directory : Directory) (pool : SelectorPool) (key : SelectorKey) :
    ∃ notes : Journal SelectorKey, notes.Quiet ∧ ∀ cache, stampedBuild directory pool key cache =
      (((directory.selector key).map (Stamped.mk pool.requests), cache), notes) := by
  refine ⟨_, quiet_build (directory.provider key.provider) key.locale key.kind, ?_⟩
  intro cache
  rw [← build_eq, stampedBuild]

theorem requested (directory : Directory) (pool : SelectorPool) (id : Provider.Id) (code : String)
    (kind : RuleKind) :
    Requested directory pool ⟨id, Locale.normalize code, kind⟩
      (pool.request (directory.provider id) code kind.name) := by
  rw [request_eq]
  generalize (⟨id, Locale.normalize code, kind⟩ : SelectorKey) = key
  obtain ⟨notes, hnotes, hbuild⟩ := stampedBuild_eq directory pool key
  cases hfind : pool.cache.find? key with
  | some stamped =>
      simp only [RecencyCache.getOrBuild_of_find?_eq_some hfind]
      exact .kept hfind
  | none =>
      have hmiss := hbuild pool.cache.countMiss
      cases hbuilt : directory.selector key with
      | error e =>
          rw [hbuilt] at hmiss
          simp only [RecencyCache.getOrBuild_of_refused hfind hmiss]
          exact .refused hfind hbuilt hnotes
      | ok selector =>
          rw [hbuilt] at hmiss
          simp only [RecencyCache.getOrBuild_of_built hfind hmiss]
          exact .built hfind hbuilt hnotes

def selectionOf (outcome : Except SelectorError Selector) (value : Number) (places : Option Int) :
    Except SelectionError (Option Category) :=
  match outcome with
  | .error e => .error (.selector e)
  | .ok selector => (selector.selectNumber value places).mapError .number

theorem categoryOf_eq (pool : SelectorPool) (provider : Provider) (code kind : String)
    (value : Number) (places : Option Int) :
    pool.categoryOf provider code kind value places =
      let result := pool.request provider code kind
      ((selectionOf (result.1.1.map Stamped.selector) value places, result.1.2), result.2) := by
  unfold categoryOf
  split
  · next heq => simp only [heq, Except.map, selectionOf]
  · next heq => simp only [heq, Except.map, selectionOf]

/-- Keys are distinct, each kept selector is that of its key, and its stamp is from a past
request. -/
structure Sound (directory : Directory) (pool : SelectorPool) : Prop where
  distinct : KeyedList.Distinct pool.cache.entries
  selector_eq : ∀ key stamped, pool.cache.find? key = some stamped →
    directory.selector key = .ok stamped.selector
  stamp_lt : ∀ key stamped, pool.cache.find? key = some stamped → stamped.stamp < pool.requests

theorem sound_of_entries_eq_nil (directory : Directory) {pool : SelectorPool}
    (h : pool.cache.entries = []) : pool.Sound directory := by
  have hnone : ∀ key, pool.cache.find? key = none := by
    intro key
    rw [RecencyCache.find?, h]
    rfl
  constructor
  · rw [h]
    exact List.nodup_nil
  · intro key stamped hfind
    rw [hnone] at hfind
    cases hfind
  · intro key stamped hfind
    rw [hnone] at hfind
    cases hfind

namespace Requested

section

variable {directory : Directory} {pool after : SelectorPool} {key other : SelectorKey}
  {outcome : Except SelectorError Stamped} {journal : Journal SelectorKey} {stamped : Stamped}
  (hrequest : Requested directory pool key ((outcome, after), journal))

include hrequest

theorem requests_eq : after.requests = pool.requests + 1 := by
  cases hrequest <;> rfl

theorem outcome_of_find? (hfind : pool.cache.find? key = some stamped) :
    outcome = .ok stamped := by
  cases hrequest with
  | kept hkept =>
      cases hfind.symm.trans hkept
      rfl
  | refused hnone => cases hfind.symm.trans hnone
  | built hnone => cases hfind.symm.trans hnone

variable (hsound : pool.Sound directory)

include hsound

/-- The stamp aside, the answer is what is built without the pool. -/
theorem outcome_eq : outcome.map Stamped.selector = directory.selector key := by
  cases hrequest with
  | kept hfind => exact (hsound.selector_eq _ _ hfind).symm
  | refused _ hbuilt => exact hbuilt.symm
  | built _ hbuilt => exact hbuilt.symm

theorem distinct : KeyedList.Distinct after.cache.entries := by
  cases hrequest with
  | kept => exact RecencyCache.distinct_get hsound.distinct key
  | refused => exact hsound.distinct
  | built =>
      have hmissed := RecencyCache.distinct_countMiss hsound.distinct
      exact RecencyCache.distinct_store hmissed key _

theorem find?_of_outcome (houtcome : outcome = .ok stamped) :
    after.cache.find? key = some stamped := by
  cases hrequest with
  | kept hfind =>
      cases houtcome
      exact (RecencyCache.find?_get hsound.distinct key key).trans hfind
  | refused => cases houtcome
  | built =>
      cases houtcome
      exact RecencyCache.find?_store_self _ _ _

/-- What is kept was kept before or was built by the request. -/
theorem find?_origin (hfind : after.cache.find? other = some stamped) :
    pool.cache.find? other = some stamped ∨
      .building other ∈ journal ∧ directory.selector other = .ok stamped.selector ∧
        stamped.stamp = pool.requests := by
  cases hrequest with
  | kept => exact .inl ((RecencyCache.find?_get hsound.distinct key other).symm.trans hfind)
  | refused => exact .inl hfind
  | built _ hbuilt =>
      have hmissed := RecencyCache.distinct_countMiss hsound.distinct
      obtain ⟨hstored, -⟩ := (RecencyCache.find?_store hmissed).mp hfind
      split at hstored
      · next hkey =>
          rw [hkey, hstored]
          exact .inr ⟨List.mem_cons_self, hbuilt, rfl⟩
      · exact .inl hstored

/-- What was kept is kept, unless its key was evicted. -/
theorem find?_of_find? (hfind : pool.cache.find? other = some stamped)
    (hkept : .evicted other ∉ journal) : after.cache.find? other = some stamped := by
  cases hrequest with
  | kept => exact (RecencyCache.find?_get hsound.distinct key other).trans hfind
  | refused => exact hfind
  | built hnone =>
      have hmissed := RecencyCache.distinct_countMiss hsound.distinct
      have hne : other ≠ key := by
        rintro rfl
        cases hfind.symm.trans hnone
      rw [RecencyCache.find?_store hmissed, if_neg hne]
      refine ⟨hfind, ?_⟩
      intro hevicted
      exact hkept (List.mem_append_right _ (List.mem_map_of_mem hevicted))

theorem find?_of_evicted (hevicted : .evicted other ∈ journal) :
    after.cache.find? other = none := by
  cases hrequest with
  | kept => cases hevicted
  | refused _ _ hnotes =>
      rcases List.mem_cons.mp hevicted with heq | hmem
      · cases heq
      · cases hnotes _ hmem
  | built _ _ hnotes =>
      have hmissed := RecencyCache.distinct_countMiss hsound.distinct
      -- Only the end of the journal, where the value is stored, tells of evictions.
      rcases List.mem_append.mp hevicted with hbefore | hmem
      · rcases List.mem_cons.mp hbefore with heq | hmem
        · cases heq
        · cases hnotes _ hmem
      · obtain ⟨gone, hgone, heq⟩ := List.mem_map.mp hmem
        cases heq
        exact RecencyCache.find?_store_of_evicted hmissed hgone

theorem sound : after.Sound directory := by
  have hrequests := hrequest.requests_eq
  refine ⟨hrequest.distinct hsound, ?_, ?_⟩
  · intro other stamped hfind
    rcases hrequest.find?_origin hsound hfind with hkept | ⟨-, hbuilt, -⟩
    · exact hsound.selector_eq other stamped hkept
    · exact hbuilt
  · intro other stamped hfind
    rcases hrequest.find?_origin hsound hfind with hkept | ⟨-, -, hstamp⟩
    · have hlt := hsound.stamp_lt other stamped hkept
      omega
    · omega

end

end Requested

/-- In a sound pool a request comes to the selector of its key. -/
theorem selector_of_request {directory : Directory} {pool : SelectorPool}
    (hsound : pool.Sound directory) (id : Provider.Id) (code : String) (kind : RuleKind) :
    (pool.request (directory.provider id) code kind.name).1.1.map Stamped.selector =
      directory.selector ⟨id, Locale.normalize code, kind⟩ :=
  (requested directory pool id code kind).outcome_eq hsound

end SelectorPool

end PluralForms
