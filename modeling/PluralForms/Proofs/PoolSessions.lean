import PluralForms.Proofs.PoolRequests

/-!
# Sessions with pools

A session makes its requests at pools that are empty when it starts, forgets what they keep, and
selects with the selectors it was shown.  Its answers are those it would get without any pool.  Only
whether a selector is the same as an earlier one depends on the pools: it is, until its key is
dropped.
-/

namespace PluralForms

/-! ## Steps and answers -/

/-- A request for the selector of a locale, made at one of several pools. -/
structure Request (ι : Type) where
  pool : ι
  provider : Provider.Id
  code : String
  kind : RuleKind

def Request.key {ι : Type} (request : Request ι) : SelectorKey where
  provider := request.provider
  locale := Locale.normalize request.code
  kind := request.kind

inductive Step (ι : Type) where
  | create (request : Request ι)
  /-- Selects with the requested selector. -/
  | categoryOf (request : Request ι) (value : Number) (places : Option Int)
  /-- Selects with a selector that was created before, counted from the first one on. -/
  | select (index : Nat) (value : Number) (places : Option Int)
  | clear (pool : ι)
  /-- Looks at the counts and keys of a pool. -/
  | info (pool : ι)

/-- What is answered about selectors, in the form `σ`, and about categories. -/
inductive Answer (σ : Type) where
  | created (outcome : Except SelectorError σ)
  | category (outcome : Except SelectorPool.SelectionError (Option Category))
  | noSelector
  | silent
  deriving DecidableEq

def Answer.map {σ τ : Type} (f : σ → τ) : Answer σ → Answer τ
  | created outcome => .created (outcome.map f)
  | category outcome => .category outcome
  | noSelector => .noSelector
  | silent => .silent

def Answer.selected {σ : Type} (shown : Option Selector) (value : Number) (places : Option Int) :
    Answer σ :=
  match shown with
  | none => .noSelector
  | some selector => .category (SelectorPool.selectionOf (.ok selector) value places)

/-! ## Without pools -/

namespace Directory

variable {ι : Type}

/-- A step without pools, after some selectors were shown. -/
def perform (directory : Directory) (shown : List Selector) :
    Step ι → Answer Selector × List Selector
  | .create request =>
      let outcome := directory.selector request.key
      (.created outcome, shown ++ outcome.toOption.toList)
  | .categoryOf request value places =>
      (.category (SelectorPool.selectionOf (directory.selector request.key) value places), shown)
  | .select index value places => (.selected shown[index]? value places, shown)
  | .clear _ => (.silent, shown)
  | .info _ => (.silent, shown)

def answers (directory : Directory) (shown : List Selector) :
    List (Step ι) → List (Answer Selector)
  | [] => []
  | step :: steps =>
      let performed := directory.perform shown step
      performed.1 :: directory.answers performed.2 steps

end Directory

/-! ## With pools -/

/-- Pools, and the selectors that they have shown so far, in order. -/
structure Session (ι : Type) where
  pools : ι → SelectorPool
  shown : List (ι × Stamped) := []

namespace Session

variable {ι : Type} [DecidableEq ι]

def withPool (session : Session ι) (p : ι) (pool : SelectorPool) : Session ι :=
  { session with pools := fun q => if q = p then pool else session.pools q }

def showing (session : Session ι) (p : ι) (outcome : Except SelectorError Stamped) : Session ι :=
  { session with shown := session.shown ++ (outcome.toOption.map (p, ·)).toList }

def ask (directory : Directory) (session : Session ι) (request : Request ι) :
    (Except SelectorError Stamped × SelectorPool) × Journal SelectorKey :=
  (session.pools request.pool).request (directory.provider request.provider) request.code
    request.kind.name

/-- The answer to a step, the session after it, and what happened at which pool. -/
def perform (directory : Directory) (session : Session ι) :
    Step ι → (Answer Stamped × Session ι) × List (ι × Record SelectorKey)
  | .create request =>
      let result := session.ask directory request
      ((.created result.1.1, (session.withPool request.pool result.1.2).showing request.pool
        result.1.1), result.2.map (request.pool, ·))
  | .categoryOf request value places =>
      let result := (session.pools request.pool).categoryOf (directory.provider request.provider)
        request.code request.kind.name value places
      ((.category result.1.1, session.withPool request.pool result.1.2),
        result.2.map (request.pool, ·))
  | .select index value places =>
      ((.selected (session.shown[index]?.map (·.2.selector)) value places, session), [])
  | .clear p => ((.silent, session.withPool p (session.pools p).clear), [])
  | .info _ => ((.silent, session), [])

def answer (directory : Directory) (session : Session ι) (step : Step ι) : Answer Stamped :=
  (session.perform directory step).1.1

def next (directory : Directory) (session : Session ι) (step : Step ι) : Session ι :=
  (session.perform directory step).1.2

def journal (directory : Directory) (session : Session ι) (step : Step ι) :
    List (ι × Record SelectorKey) :=
  (session.perform directory step).2

def after (directory : Directory) (session : Session ι) (steps : List (Step ι)) : Session ι :=
  steps.foldl (next directory) session

def answers (directory : Directory) (session : Session ι) : List (Step ι) → List (Answer Stamped)
  | [] => []
  | step :: steps =>
      session.answer directory step :: (session.next directory step).answers directory steps

/-- A key is dropped from a pool: it is evicted, or the pool is cleared. -/
def Drops (directory : Directory) (p : ι) (key : SelectorKey) (session : Session ι)
    (step : Step ι) : Prop :=
  (p, .evicted key) ∈ session.journal directory step ∨ step = .clear p

def Builds (directory : Directory) (p : ι) (key : SelectorKey) (stamp : Nat) (session : Session ι)
    (step : Step ι) : Prop :=
  (p, .building key) ∈ session.journal directory step ∧ stamp = (session.pools p).requests

def Sometime (directory : Directory) (event : Session ι → Step ι → Prop) (session : Session ι)
    (steps : List (Step ι)) : Prop :=
  ∃ before step since, steps = before ++ step :: since ∧
    event (session.after directory before) step

def kept? (session : Session ι) (p : ι) (key : SelectorKey) : Option Stamped :=
  (session.pools p).cache.find? key

/-! ## One step at one pool -/

@[simp] theorem withPool_self (session : Session ι) (p : ι) (pool : SelectorPool) :
    (session.withPool p pool).pools p = pool :=
  if_pos rfl

theorem withPool_of_ne (session : Session ι) {p q : ι} (h : q ≠ p) (pool : SelectorPool) :
    (session.withPool p pool).pools q = session.pools q :=
  if_neg h

structure Asks (directory : Directory) (session : Session ι) (step : Step ι) (request : Request ι)
    (outcome : Except SelectorError Stamped) (journal : Journal SelectorKey) : Prop where
  requested : SelectorPool.Requested directory (session.pools request.pool) request.key
    ((outcome, (session.next directory step).pools request.pool), journal)
  others : ∀ q ≠ request.pool, (session.next directory step).pools q = session.pools q
  journal_eq : session.journal directory step = journal.map (request.pool, ·)

/-- A pool is left alone, is cleared, or answers a request. -/
inductive Turn (directory : Directory) (session : Session ι) (p : ι) (step : Step ι) : Prop where
  | idle (hpool : (session.next directory step).pools p = session.pools p)
      (hstep : step ≠ .clear p)
      (hjournal : ∀ record, (p, record) ∉ session.journal directory step)
  | cleared (hstep : step = .clear p)
  | asked {key : SelectorKey} {outcome : Except SelectorError Stamped}
      {journal : Journal SelectorKey}
      (hrequest : SelectorPool.Requested directory (session.pools p) key
        ((outcome, (session.next directory step).pools p), journal))
      (hstep : step ≠ .clear p)
      (hjournal : ∀ record, (p, record) ∈ session.journal directory step ↔ record ∈ journal)

variable {directory : Directory} {session : Session ι} {p : ι} {step : Step ι}
  {request : Request ι}

theorem asks_of_next
    (hpools : (session.next directory step).pools =
      (session.withPool request.pool (session.ask directory request).1.2).pools)
    (hjournal : session.journal directory step =
      (session.ask directory request).2.map (request.pool, ·)) :
    Asks directory session step request (session.ask directory request).1.1
      (session.ask directory request).2 := by
  refine ⟨?_, ?_, hjournal⟩
  · rw [hpools, withPool_self]
    exact SelectorPool.requested directory _ _ _ _
  · intro q hq
    rw [hpools, withPool_of_ne session hq]

theorem asks_create (directory : Directory) (session : Session ι) (request : Request ι) :
    Asks directory session (.create request) request (session.ask directory request).1.1
      (session.ask directory request).2 :=
  asks_of_next rfl rfl

theorem perform_categoryOf (directory : Directory) (session : Session ι) (request : Request ι)
    (value : Number) (places : Option Int) :
    session.perform directory (.categoryOf request value places) =
      let result := session.ask directory request
      ((.category (SelectorPool.selectionOf (result.1.1.map Stamped.selector) value places),
        session.withPool request.pool result.1.2), result.2.map (request.pool, ·)) := by
  simp only [perform, SelectorPool.categoryOf_eq, ask]

theorem asks_categoryOf (directory : Directory) (session : Session ι) (request : Request ι)
    (value : Number) (places : Option Int) :
    Asks directory session (.categoryOf request value places) request
      (session.ask directory request).1.1 (session.ask directory request).2 := by
  apply asks_of_next
  · rw [next, perform_categoryOf]
  · rw [journal, perform_categoryOf]

theorem Asks.turn {outcome : Except SelectorError Stamped} {journal : Journal SelectorKey}
    (h : Asks directory session step request outcome journal) (hstep : step ≠ .clear p) :
    Turn directory session p step := by
  by_cases hp : p = request.pool
  · subst hp
    refine .asked h.requested hstep ?_
    intro record
    rw [h.journal_eq]
    simp
  · refine .idle (h.others p hp) hstep ?_
    intro record
    rw [h.journal_eq]
    simp [Ne.symm hp]

theorem turn (directory : Directory) (session : Session ι) (p : ι) (step : Step ι) :
    Turn directory session p step := by
  cases step with
  | create request => exact (asks_create directory session request).turn nofun
  | categoryOf request value places =>
      exact (asks_categoryOf directory session request value places).turn nofun
  | select => exact .idle rfl nofun nofun
  | info => exact .idle rfl nofun nofun
  | clear q =>
      by_cases hp : p = q
      · subst hp
        exact .cleared rfl
      · refine .idle (withPool_of_ne session hp _) ?_ nofun
        intro heq
        cases heq
        exact hp rfl

theorem next_clear (directory : Directory) (session : Session ι) (p : ι) :
    (session.next directory (.clear p)).pools p = (session.pools p).clear :=
  session.withPool_self p _

/-! ## What a step keeps -/

/-- All pools are sound, and the shown selectors are from past requests. -/
structure Sound (directory : Directory) (session : Session ι) : Prop where
  pools : ∀ p, (session.pools p).Sound directory
  stamp_lt : ∀ p stamped, (p, stamped) ∈ session.shown →
    stamped.stamp < (session.pools p).requests

theorem requests_le_next (directory : Directory) (session : Session ι) (p : ι) (step : Step ι) :
    (session.pools p).requests ≤ ((session.next directory step).pools p).requests := by
  cases session.turn directory p step with
  | idle hpool => exact Nat.le_of_eq (congrArg SelectorPool.requests hpool.symm)
  | cleared hstep =>
      rw [hstep, next_clear]
      exact Nat.le_refl _
  | asked hrequest =>
      rw [hrequest.requests_eq]
      exact Nat.le_succ _

theorem sound_pool_next (h : (session.pools p).Sound directory) (step : Step ι) :
    ((session.next directory step).pools p).Sound directory := by
  cases session.turn directory p step with
  | idle hpool => rwa [hpool]
  | cleared hstep =>
      rw [hstep, next_clear]
      exact SelectorPool.sound_of_entries_eq_nil directory rfl
  | asked hrequest => exact hrequest.sound h

section

variable {key : SelectorKey} {stamped : Stamped} (h : (session.pools p).Sound directory)

include h

/-- What a pool keeps stays, until its key is dropped. -/
theorem kept?_next (hkept : session.kept? p key = some stamped)
    (hdrop : ¬Drops directory p key session step) :
    (session.next directory step).kept? p key = some stamped := by
  rw [Drops, not_or] at hdrop
  cases session.turn directory p step with
  | idle hpool => rwa [kept?, hpool]
  | cleared hstep => exact absurd hstep hdrop.2
  | asked hrequest _ hjournal =>
      rw [hjournal] at hdrop
      exact hrequest.find?_of_find? h hkept hdrop.1

/-- What a pool keeps was kept before, or is built in the step. -/
theorem kept?_origin (hkept : (session.next directory step).kept? p key = some stamped) :
    session.kept? p key = some stamped ∨ Builds directory p key stamped.stamp session step := by
  cases session.turn directory p step with
  | idle hpool =>
      rw [kept?, hpool] at hkept
      exact .inl hkept
  | cleared hstep =>
      rw [hstep, kept?, next_clear] at hkept
      cases hkept
  | asked hrequest _ hjournal =>
      rcases hrequest.find?_origin h hkept with hbefore | ⟨hbuilding, -, hstamp⟩
      · exact .inl hbefore
      · exact .inr ⟨(hjournal _).mpr hbuilding, hstamp⟩

theorem kept?_of_drops (hdrop : Drops directory p key session step) :
    (session.next directory step).kept? p key = none := by
  cases session.turn directory p step with
  | idle _ hstep hjournal =>
      rcases hdrop with hevicted | hclear
      · exact absurd hevicted (hjournal _)
      · exact absurd hclear hstep
  | cleared hstep =>
      rw [hstep, kept?, next_clear]
      rfl
  | asked hrequest hstep hjournal =>
      rcases hdrop with hevicted | hclear
      · exact hrequest.find?_of_evicted h ((hjournal _).mp hevicted)
      · exact absurd hclear hstep

end

theorem kept?_next_create (h : (session.pools request.pool).Sound directory) {stamped : Stamped}
    (hanswer : session.answer directory (.create request) = .created (.ok stamped)) :
    (session.next directory (.create request)).kept? request.pool request.key = some stamped :=
  (asks_create directory session request).requested.find?_of_outcome h (Answer.created.inj hanswer)

theorem eq_of_kept? {stamped kept : Stamped}
    (hkept : session.kept? request.pool request.key = some kept)
    (hanswer : session.answer directory (.create request) = .created (.ok stamped)) :
    stamped = kept := by
  have houtcome := (asks_create directory session request).requested.outcome_of_find? hkept
  have heq : Answer.created (.ok stamped) = .created (.ok kept) :=
    hanswer.symm.trans (congrArg Answer.created houtcome)
  cases heq
  rfl

/-- Only creating a selector shows one. -/
theorem mem_shown_next {stamped : Stamped}
    (hmem : (p, stamped) ∈ (session.next directory step).shown) :
    (p, stamped) ∈ session.shown ∨ ∃ request, step = .create request ∧ request.pool = p ∧
      session.answer directory step = .created (.ok stamped) := by
  cases step with
  | create request =>
      rcases List.mem_append.mp hmem with hbefore | hnew
      · exact .inl hbefore
      · refine .inr ⟨request, rfl, ?_⟩
        cases houtcome : (session.ask directory request).1.1 with
        | error e => simp [houtcome, Except.toOption] at hnew
        | ok answered =>
            simp only [houtcome, Except.toOption, Option.map_some, Option.toList_some,
              List.mem_singleton] at hnew
            cases hnew
            exact ⟨rfl, congrArg Answer.created houtcome⟩
  | categoryOf request value places =>
      rw [next, perform_categoryOf] at hmem
      exact .inl hmem
  | select => exact .inl hmem
  | clear => exact .inl hmem
  | info => exact .inl hmem

theorem Sound.next (h : session.Sound directory) (step : Step ι) :
    (session.next directory step).Sound directory := by
  refine ⟨fun p => sound_pool_next (h.pools p) step, ?_⟩
  intro p stamped hmem
  rcases mem_shown_next hmem with hbefore | ⟨request, rfl, rfl, hanswer⟩
  · exact Nat.lt_of_lt_of_le (h.stamp_lt p stamped hbefore)
      (session.requests_le_next directory p step)
  · exact (sound_pool_next (h.pools _) _).stamp_lt _ _ (kept?_next_create (h.pools _) hanswer)

/-! ## What a run keeps -/

theorem after_append (session : Session ι) (first second : List (Step ι)) :
    session.after directory (first ++ second) =
      (session.after directory first).after directory second :=
  List.foldl_append

theorem Sound.after (h : session.Sound directory) (steps : List (Step ι)) :
    (session.after directory steps).Sound directory := by
  induction steps generalizing session with
  | nil => exact h
  | cons step others ih => exact ih (h.next step)

theorem requests_le_after (session : Session ι) (p : ι) (steps : List (Step ι)) :
    (session.pools p).requests ≤ ((session.after directory steps).pools p).requests := by
  induction steps generalizing session with
  | nil => exact Nat.le_refl _
  | cons step others ih =>
      exact Nat.le_trans (session.requests_le_next directory p step) (ih _)

theorem sometime_cons {event : Session ι → Step ι → Prop} {others : List (Step ι)} :
    session.Sometime directory event (step :: others) ↔
      event session step ∨ (session.next directory step).Sometime directory event others := by
  constructor
  · rintro ⟨before, found, since, heq, hevent⟩
    cases before with
    | nil =>
        cases heq
        exact .inl hevent
    | cons first before =>
        cases heq
        exact .inr ⟨before, found, since, rfl, hevent⟩
  · rintro (hevent | ⟨before, found, since, rfl, hevent⟩)
    · exact ⟨[], step, others, rfl, hevent⟩
    · exact ⟨step :: before, found, since, rfl, hevent⟩

section

variable {key : SelectorKey} {stamped : Stamped} (h : session.Sound directory)

include h

theorem kept?_after (steps : List (Step ι)) (hkept : session.kept? p key = some stamped)
    (hdrop : ¬session.Sometime directory (Drops directory p key) steps) :
    (session.after directory steps).kept? p key = some stamped := by
  induction steps generalizing session with
  | nil => exact hkept
  | cons step others ih =>
      rw [sometime_cons, not_or] at hdrop
      exact ih (h.next step) (kept?_next (h.pools p) hkept hdrop.1) hdrop.2

theorem kept?_after_origin (steps : List (Step ι))
    (hkept : (session.after directory steps).kept? p key = some stamped) :
    session.kept? p key = some stamped ∨
      session.Sometime directory (Builds directory p key stamped.stamp) steps := by
  induction steps generalizing session with
  | nil => exact .inl hkept
  | cons step others ih =>
      rw [sometime_cons]
      rcases ih (h.next step) hkept with hnext | hbuilt
      · rcases kept?_origin (h.pools p) hnext with hbefore | hbuilds
        · exact .inl hbefore
        · exact .inr (.inl hbuilds)
      · exact .inr (.inr hbuilt)

end

/-! ## The same selector, or another -/

/-- What is built has a stamp that was not given before. -/
theorem requests_le_of_sometime {key : SelectorKey} {stamp : Nat} {steps : List (Step ι)}
    (h : session.Sometime directory (Builds directory p key stamp) steps) :
    (session.pools p).requests ≤ stamp := by
  obtain ⟨before, step, since, -, -, hstamp⟩ := h
  rw [hstamp]
  exact session.requests_le_after p before

/-- A key that is not dropped keeps its selector. -/
theorem eq_of_not_dropped (h : session.Sound directory) {first second : Request ι}
    (hpool : second.pool = first.pool) (hkey : second.key = first.key) {a b : Stamped}
    {between : List (Step ι)}
    (ha : session.answer directory (.create first) = .created (.ok a))
    (hb : ((session.next directory (.create first)).after directory between).answer directory
      (.create second) = .created (.ok b))
    (hdrop : ¬(session.next directory (.create first)).Sometime directory
      (Drops directory first.pool first.key) between) :
    b = a := by
  have hkept := kept?_after (h.next _) between (kept?_next_create (h.pools _) ha) hdrop
  rw [← hpool, ← hkey] at hkept
  exact eq_of_kept? hkept hb

/-- Behind a step that drops a key, a selector of the key must have been built again. -/
theorem built_of_dropped (h : session.Sound directory) {drop : Step ι}
    (hdrop : Drops directory request.pool request.key session drop) {since : List (Step ι)}
    {b : Stamped}
    (hb : ((session.next directory drop).after directory since).answer directory
      (.create request) = .created (.ok b)) :
    (session.next directory drop).Sometime directory
      (Builds directory request.pool request.key b.stamp) (since ++ [.create request]) := by
  have hsound := (h.next drop).after since
  have hkept := kept?_next_create (hsound.pools _) hb
  have hafter : ((session.next directory drop).after directory since).next directory
      (.create request) =
        (session.next directory drop).after directory (since ++ [.create request]) := by
    rw [after_append]
    rfl
  rw [hafter] at hkept
  -- Nothing is kept under the key right behind the drop, so what is kept at the end was built.
  rcases kept?_after_origin (h.next drop) _ hkept with hbefore | hbuilt
  · rw [kept?_of_drops (h.pools _) hdrop] at hbefore
    cases hbefore
  · exact hbuilt

/-! ## Answers -/

/-- A step answers and shows what it would without pools. -/
theorem perform_eq (h : session.Sound directory) (step : Step ι) :
    ((session.answer directory step).map Stamped.selector,
      (session.next directory step).shown.map (·.2.selector)) =
      directory.perform (session.shown.map (·.2.selector)) step := by
  cases step with
  | create request =>
      have houtcome := (asks_create directory session request).requested.outcome_eq (h.pools _)
      simp only [answer, Session.next, perform, showing, withPool, Answer.map, Directory.perform,
        List.map_append, ← houtcome]
      cases (session.ask directory request).1.1 <;> rfl
  | categoryOf request value places =>
      have houtcome :=
        (asks_categoryOf directory session request value places).requested.outcome_eq (h.pools _)
      rw [answer, Session.next, perform_categoryOf, Directory.perform, ← houtcome]
      rfl
  | select index value places =>
      simp only [answer, Session.next, perform, Directory.perform, List.getElem?_map]
      cases session.shown[index]? <;> rfl
  | clear => rfl
  | info => rfl

theorem answers_eq (h : session.Sound directory) (steps : List (Step ι)) :
    (session.answers directory steps).map (Answer.map Stamped.selector) =
      directory.answers (session.shown.map (·.2.selector)) steps := by
  induction steps generalizing session with
  | nil => rfl
  | cons step others ih =>
      rw [answers, List.map_cons, ih (h.next step), Directory.answers, ← perform_eq h step]

/-! ## The start -/

omit [DecidableEq ι] in
theorem exists_start {capacities : ι → Int} (hpos : ∀ p, 1 ≤ capacities p) :
    ∃ start : Session ι, (∀ p, SelectorPool.ofCapacity? (capacities p) = .ok (start.pools p)) ∧
      start.shown = [] ∧ ∀ directory, start.Sound directory := by
  have hpools : ∀ p, ∃ pool, SelectorPool.ofCapacity? (capacities p) = .ok pool ∧
      pool.cache.entries = [] := by
    intro p
    have hcapacity : 0 < capacities p := hpos p
    refine ⟨⟨⟨(capacities p).toNat, by omega, [], 0, 0⟩, 0⟩, ?_, rfl⟩
    simp only [SelectorPool.ofCapacity?, RecencyCache.ofCapacity?, dif_pos hcapacity]
    rfl
  obtain ⟨pools, hpools⟩ := Classical.axiomOfChoice hpools
  refine ⟨⟨pools, []⟩, fun p => (hpools p).1, rfl, ?_⟩
  intro directory
  refine ⟨fun p => SelectorPool.sound_of_entries_eq_nil directory (hpools p).2, ?_⟩
  intro p stamped hmem
  exact absurd hmem List.not_mem_nil

/-- Pools are transparent.  Whatever the capacities, every session that starts with empty pools has
the answers it would have without them, up to the stamps of the selectors it creates.  Of two
selectors that are created under one key, the second is the first where the key was not dropped in
between; else it is none that was shown up to the drop, and was built after it. -/
theorem pools_transparent (directory : Directory) (capacities : ι → Int)
    (hpos : ∀ p, 1 ≤ capacities p) :
    ∃ start : Session ι, (∀ p, SelectorPool.ofCapacity? (capacities p) = .ok (start.pools p)) ∧
      start.shown = [] ∧
      (∀ steps, (start.answers directory steps).map (Answer.map Stamped.selector) =
        directory.answers [] steps) ∧
      ∀ (earlier between : List (Step ι)) (first second : Request ι) (a b : Stamped),
        second.pool = first.pool → second.key = first.key →
        let session := start.after directory earlier
        let created := session.next directory (.create first)
        session.answer directory (.create first) = .created (.ok a) →
        (created.after directory between).answer directory (.create second) =
          .created (.ok b) →
        (¬created.Sometime directory (Drops directory first.pool first.key) between → b = a) ∧
        ∀ before drop since, between = before ++ drop :: since →
          Drops directory first.pool first.key (created.after directory before) drop →
          let dropped := (created.after directory before).next directory drop
          a.stamp < b.stamp ∧
            (∀ old, (first.pool, old) ∈ dropped.shown → old.stamp < b.stamp) ∧
            dropped.Sometime directory (Builds directory first.pool first.key b.stamp)
              (since ++ [.create second]) := by
  obtain ⟨start, hpools, hshown, hstart⟩ := exists_start hpos
  refine ⟨start, hpools, hshown, ?_, ?_⟩
  · intro steps
    rw [answers_eq (hstart directory) steps, hshown]
    rfl
  · intro earlier between first second a b hpool hkey session created ha hb
    have hsession : session.Sound directory := (hstart directory).after earlier
    refine ⟨eq_of_not_dropped hsession hpool hkey ha hb, ?_⟩
    rintro before drop since rfl hdrop dropped
    have hcreated : created.Sound directory := hsession.next (.create first)
    have hdropped : dropped.Sound directory := (hcreated.after before).next drop
    -- Cut behind `before`, the run in between goes on with the step that drops the key.
    rw [after_append] at hb
    rw [← hpool, ← hkey] at hdrop
    have hbuilt := built_of_dropped (hcreated.after before) hdrop hb
    rw [hpool, hkey] at hbuilt
    have hstamp : (dropped.pools first.pool).requests ≤ b.stamp := requests_le_of_sometime hbuilt
    refine ⟨?_, ?_, hbuilt⟩
    -- All stamps up to the drop are below the count of requests there, and `b` has none below it.
    · have ha' := (hcreated.pools _).stamp_lt _ _ (kept?_next_create (hsession.pools _) ha)
      have hrequests : (created.pools first.pool).requests ≤ (dropped.pools first.pool).requests :=
        Nat.le_trans (created.requests_le_after first.pool before)
          (requests_le_next directory _ first.pool drop)
      omega
    · intro old hold
      exact Nat.lt_of_lt_of_le (hdropped.stamp_lt _ _ hold) hstamp

def oneLocale : Directory where
  lookup _ code kind :=
    if code = "aa" then .ok [("few", .text "n = 3..7")] else .error (.localeNotFound code kind)

def requestOf (code : String) : Request Unit where
  pool := ()
  provider := { name := some "one locale", label := "OneLocale" }
  code := code
  kind := .cardinal

def fewSelector (locale : String) : Selector where
  locale := locale
  kind := .cardinal
  rules := {
    ruled := [(.few, {
      condition := ⟨[[{
        operand := .n
        comparison := .membership ⟨⟨3, 7, by decide⟩, []⟩ }]]⟩ })] }

def narrow : Session Unit where
  pools _ := { cache := { capacity := 1 } }

/-- The rules of the ancestor are built for `aa_BB` in any spelling, but under another stamp once
`aa` took the room; a locale that is not known takes none. -/
theorem pools_transparent_narrow :
    let first := requestOf "aa-BB"
    let second := requestOf " aa_BB "
    let unknown := Step.create (requestOf "zz")
    let drop := Step.categoryOf (requestOf "aa") (.text "1") none
    let created := narrow.next oneLocale (.create first)
    let steps := [.create first, unknown, drop, .create second, .select 1 (.text "4") none]
    (narrow.answers oneLocale steps).map (Answer.map Stamped.selector) =
        oneLocale.answers [] steps ∧
      Drops oneLocale () first.key (created.after oneLocale [unknown]) drop ∧
      ∃ a b, narrow.answer oneLocale (.create first) = .created (.ok a) ∧
        (created.after oneLocale [unknown, drop]).answer oneLocale (.create second) =
          .created (.ok b) ∧ a.stamp < b.stamp := by
  intro first second unknown drop created steps
  obtain ⟨start, hpools, hshown, hanswers, hagain⟩ :=
    pools_transparent oneLocale (fun _ : Unit => 1) fun _ => Int.le_refl 1
  have hstart : start = narrow := by
    obtain ⟨pools, shown⟩ := start
    cases hshown
    have heq : pools = narrow.pools := funext fun p => (Except.ok.inj (hpools p)).symm
    rw [heq]
    rfl
  subst hstart
  have ha : narrow.answer oneLocale (.create first) =
      .created (.ok ⟨0, fewSelector "aa_BB"⟩) := by
    decide +kernel
  have hb : (created.after oneLocale [unknown, drop]).answer oneLocale (.create second) =
      .created (.ok ⟨3, fewSelector "aa_BB"⟩) := by
    decide +kernel
  have hdrop : Drops oneLocale () first.key (created.after oneLocale [unknown]) drop :=
    .inl (by decide +kernel)
  obtain ⟨-, hdropped⟩ :=
    hagain [] [unknown, drop] first second _ _ rfl (by decide +kernel) ha hb
  obtain ⟨hlt, -⟩ := hdropped [unknown] drop [] rfl hdrop
  exact ⟨hanswers steps, hdrop, _, _, ha, hb, hlt⟩

end Session

end PluralForms
