import Mathlib.Data.List.Forall2
import PluralForms.Proofs.Refusals
import PluralForms.Proofs.RuleEntries

/-!
# Faults of a rule map

Every entry is judged by itself: its name has to be that of a category, its text has to be a rule,
and only `other` may go without a condition.  A map of texts is refused just when some entry has a
fault, and the refusal tells the fault of every such entry, in the order of the map.
-/

namespace PluralForms

/-! ## Rules without a condition -/

theorem Condition.Derives.eq_nil {tokens : Tokens} (h : Derives tokens .always) : tokens = [] := by
  cases h with
  | always => rfl
  | groups hgroups => exact absurd rfl hgroups.ne_nil

/-- A rule has no condition where the scanner meets the first marker, or the end, before any
token. -/
theorem Rule.tokenize_of_always {source : String} {rule : Rule} (h : parse source = .ok rule)
    (halways : rule.condition = .always) :
    tokenize source = .ok ([], source.toList.idxOf sampleMarker) := by
  obtain ⟨stop, hcondition, -⟩ := readText_eq_ok_iff.mp (refusedIn_eq_ok_iff.mp h)
  rw [← Condition.stop_of_readText hcondition]
  obtain ⟨-, tokens, hscan, hderived⟩ := Condition.readText_eq_ok_iff.mp hcondition
  rw [halways] at hderived
  rw [hderived.eq_nil] at hscan
  exact Condition.tokenize_eq_ok_iff.mpr hscan

theorem idxOf_eq_length_takeWhile (text : List Char) (c : Char) :
    text.idxOf c = (text.takeWhile (· != c)).length := by
  induction text with
  | nil => rfl
  | cons d rest ih =>
      by_cases hd : d = c
      · simp [hd]
      · simp [List.idxOf_cons_ne rest hd, hd, ih]

/-! ## The fault of an entry -/

/-- What is wrong with an entry, and how it is told. -/
inductive Fault (name source : String) : RuleError → Prop where
  /-- The name is told before the text is looked at. -/
  | unknownName (hname : ∀ category : Category, category.name ≠ name) :
      Fault name source (unknownCategory name)
  /-- The refusal is the one that the text gets by itself. -/
  | malformed {category : Category} {error : RuleError} (hname : category.name = name)
      (hparse : Rule.parse source = .error error) : Fault name source error
  /-- The refusal stands where the scanner stops without a token. -/
  | conditionless {category : Category} {rule : Rule} {error : RuleError}
      (hname : category.name = name) (hother : category ≠ .other)
      (hparse : Rule.parse source = .ok rule) (halways : rule.condition = .always)
      (hproblem : error.problem = .ended .relation) (hsource : error.source = source)
      (hmarker : error.position = source.toList.idxOf sampleMarker)
      (hstop : tokenize source = .ok ([], error.position)) : Fault name source error

/-- The entry names no category, its text is no rule, or it is a rule without condition for a
category that needs one. -/
def Faulty (entry : String × String) : Prop :=
  (∀ category : Category, category.name ≠ entry.1) ∨
    (∃ error, Rule.parse entry.2 = .error error) ∨
    (entry.1 ≠ Category.other.name ∧
      ∃ rule, Rule.parse entry.2 = .ok rule ∧ rule.condition = .always)

theorem Category.ofName?_eq_none_iff {name : String} :
    Category.ofName? name = none ↔ ∀ category : Category, category.name ≠ name := by
  rw [Option.eq_none_iff_forall_ne_some]
  exact forall_congr' fun category => not_congr Category.ofName?_eq_some_iff

theorem eq_missingCondition_iff {source : String} {rule : Rule} {error : RuleError}
    (hparse : Rule.parse source = .ok rule) (halways : rule.condition = .always) :
    error = missingCondition source ↔
      error.problem = .ended .relation ∧ error.source = source ∧
        error.position = source.toList.idxOf sampleMarker ∧
        tokenize source = .ok ([], error.position) := by
  have hstop := Rule.tokenize_of_always hparse halways
  have hplace := idxOf_eq_length_takeWhile source.toList sampleMarker
  constructor
  · rintro rfl
    refine ⟨rfl, rfl, hplace.symm, ?_⟩
    rw [hstop, hplace]
    rfl
  · obtain ⟨⟨problem, position⟩, read⟩ := error
    rintro ⟨rfl, rfl, hposition, -⟩
    rw [missingCondition, ← hplace, ← hposition]

theorem readEntry_eq_error_iff {name source : String} {error : RuleError} :
    readEntry name source = .error error ↔ Fault name source error := by
  constructor
  · intro h
    unfold readEntry at h
    split at h
    · next hname =>
        cases h
        exact .unknownName (Category.ofName?_eq_none_iff.mp hname)
    · next category hname =>
        have hcategory := Category.name_of_ofName? hname
        split at h
        · next refused hparse =>
            cases h
            exact .malformed hcategory hparse
        · next rule hparse =>
            split at h
            · next hmissing =>
                cases h
                rw [Bool.and_eq_true, Condition.isAlways_iff, bne_iff_ne] at hmissing
                obtain ⟨hproblem, hsource, hmarker, hstop⟩ :=
                  (eq_missingCondition_iff hparse hmissing.1).mp rfl
                exact .conditionless hcategory hmissing.2 hparse hmissing.1 hproblem hsource
                  hmarker hstop
            · cases h
  · intro h
    cases h with
    | unknownName hname => rw [readEntry, Category.ofName?_eq_none_iff.mpr hname]
    | malformed hname hparse =>
        simp only [readEntry, Category.ofName?_eq_some_iff.mpr hname, hparse]
    | conditionless hname hother hparse halways hproblem hsource hmarker hstop =>
        have hmissing := (eq_missingCondition_iff hparse halways).mpr
          ⟨hproblem, hsource, hmarker, hstop⟩
        simp only [readEntry, Category.ofName?_eq_some_iff.mpr hname, hparse]
        rw [if_pos, hmissing]
        rw [Bool.and_eq_true, Condition.isAlways_iff, bne_iff_ne]
        exact ⟨halways, hother⟩

theorem exists_fault_iff {name source : String} :
    (∃ error, Fault name source error) ↔ Faulty (name, source) := by
  constructor
  · rintro ⟨error, hfault⟩
    cases hfault with
    | unknownName hname => exact .inl hname
    | malformed _ hparse => exact .inr (.inl ⟨error, hparse⟩)
    | conditionless hname hother hparse halways =>
        refine .inr (.inr ⟨?_, _, hparse, halways⟩)
        rintro rfl
        exact hother (Category.name_injective hname)
  · intro hfaulty
    by_cases hname : ∀ category : Category, category.name ≠ name
    · exact ⟨_, .unknownName hname⟩
    · obtain ⟨category, rfl⟩ := Classical.not_forall_not.mp hname
      rcases hfaulty with hunknown | ⟨error, hparse⟩ | ⟨hother, rule, hparse, halways⟩
      · exact absurd hunknown hname
      · exact ⟨error, .malformed rfl hparse⟩
      · obtain ⟨hproblem, hsource, hmarker, hstop⟩ :=
          (eq_missingCondition_iff hparse halways).mp rfl
        refine ⟨_, .conditionless rfl ?_ hparse halways hproblem hsource hmarker hstop⟩
        rintro rfl
        exact hother rfl

theorem refused?_eq_some_iff {name source : String} {told : String × RuleError} :
    refused? (name, .text source) = some told ↔ told.1 = name ∧ Fault name source told.2 := by
  obtain ⟨given, error⟩ := told
  rw [← readEntry_eq_error_iff, refused?]
  cases readEntry name source with
  | ok entry => simp
  | error e => simp [eq_comm]

theorem isSome_refused?_iff {entry : String × String} :
    (refused? (entry.1, .text entry.2)).isSome = true ↔ Faulty entry := by
  rw [← exists_fault_iff, Option.isSome_iff_exists]
  constructor
  · rintro ⟨told, htold⟩
    exact ⟨told.2, (refused?_eq_some_iff.mp htold).2⟩
  · rintro ⟨error, hfault⟩
    exact ⟨(entry.1, error), refused?_eq_some_iff.mpr ⟨rfl, hfault⟩⟩

instance : DecidablePred Faulty :=
  fun _ => decidable_of_iff _ isSome_refused?_iff

/-! ## What building comes to -/

theorem forall₂_filter_filterMap {α β : Type} {f : α → Option β} {p : α → Prop} [DecidablePred p]
    {R : α → β → Prop} (hkept : ∀ a, (f a).isSome = true ↔ p a) (hR : ∀ a b, f a = some b → R a b)
    (as : List α) : List.Forall₂ R (as.filter fun a => p a) (as.filterMap f) := by
  induction as with
  | nil => exact .nil
  | cons a others ih =>
      cases hf : f a with
      | none =>
          have hdropped : ¬p a := by
            rw [← hkept, hf]
            exact Bool.false_ne_true
          rw [List.filterMap_cons_none hf, List.filter_cons_of_neg (by simpa using hdropped)]
          exact ih
      | some b =>
          have hkeeps : p a := (hkept a).mp (by rw [hf]; rfl)
          rw [List.filterMap_cons_some hf, List.filter_cons_of_pos (by simpa using hkeeps)]
          exact .cons (hR a b hf) ih

def RuleMap.ofTexts (texts : List (String × String)) : RuleMap :=
  texts.map fun entry => (entry.1, .text entry.2)

theorem RuleMap.allTexts_ofTexts (texts : List (String × String)) :
    (RuleMap.ofTexts texts).AllTexts := by
  intro entry hmem
  obtain ⟨given, -, rfl⟩ := List.mem_map.mp hmem
  exact ⟨given.2, rfl⟩

namespace Selector

section

variable {κ : Type} (locale : String) (kind : RuleKind) {rules : RuleMap}

theorem ofNamedKind_of_notText {error : NotText} (hread : readEntries rules = .error error) :
    (ofNamedKind locale kind.name rules : _ × Journal κ).1 = .error (.notText error) := by
  simp only [ofNamedKind, RuleKind.named_name, ofRules, hread]

theorem ofNamedKind_of_sound {entries : List (Category × Rule)}
    (hread : readEntries rules = .ok (entries, [])) :
    (ofNamedKind locale kind.name rules : _ × Journal κ).1 =
      .ok { locale, kind, rules := .ofEntries entries } := by
  simp only [ofNamedKind, RuleKind.named_name, ofRules, hread]

theorem ofNamedKind_of_faults {entries : List (Category × Rule)}
    {errors : List (String × RuleError)} (hread : readEntries rules = .ok (entries, errors))
    (hfaults : errors ≠ []) :
    (ofNamedKind locale kind.name rules : _ × Journal κ).1 =
      .error (.rejected { locale, kind, errors }) := by
  cases errors with
  | nil => exact absurd rfl hfaults
  | cons told more => simp only [ofNamedKind, RuleKind.named_name, ofRules, hread]

end

/-- A map of texts is refused just when some entry has a fault, else a selector is built.  The
refusal tells the fault of every such entry and of no other, in the order of the map. -/
theorem rejected_iff_faulty {κ : Type} (locale : String) (kind : RuleKind)
    (texts : List (String × String)) :
    let outcome := (ofNamedKind locale kind.name (.ofTexts texts) : _ × Journal κ).1
    ((∃ refusal, outcome = .error (.rejected refusal)) ↔ ∃ entry ∈ texts, Faulty entry) ∧
      (∀ refusal, outcome = .error (.rejected refusal) →
        refusal.locale = locale ∧ refusal.kind = kind ∧
          List.Forall₂ (fun entry told => told.1 = entry.1 ∧ Fault entry.1 entry.2 told.2)
            (texts.filter fun entry => Faulty entry) refusal.errors) ∧
      ((∀ entry ∈ texts, ¬Faulty entry) → ∃ selector, outcome = .ok selector) := by
  have htold : List.Forall₂ (fun entry told => told.1 = entry.1 ∧ Fault entry.1 entry.2 told.2)
      (texts.filter fun entry => Faulty entry) ((RuleMap.ofTexts texts).filterMap refused?) := by
    rw [RuleMap.ofTexts, List.filterMap_map]
    exact forall₂_filter_filterMap (fun _ => isSome_refused?_iff)
      (fun _ _ => refused?_eq_some_iff.mp) texts
  have hnone : (RuleMap.ofTexts texts).filterMap refused? = [] ↔
      ∀ entry ∈ texts, ¬Faulty entry := by
    rw [List.filterMap_eq_nil_iff, RuleMap.ofTexts, List.forall_mem_map]
    simp only [← isSome_refused?_iff, Option.not_isSome_iff_eq_none]
  have hread := readEntries_of_allTexts (RuleMap.allTexts_ofTexts texts)
  intro outcome
  by_cases hsound : ∀ entry ∈ texts, ¬Faulty entry
  · rw [hnone.mpr hsound] at hread
    have houtcome : outcome = _ := ofNamedKind_of_sound locale kind hread
    rw [houtcome]
    refine ⟨⟨nofun, ?_⟩, nofun, fun _ => ⟨_, rfl⟩⟩
    rintro ⟨entry, hmem, hfaulty⟩
    exact absurd hfaulty (hsound entry hmem)
  · have hfaults : (RuleMap.ofTexts texts).filterMap refused? ≠ [] := mt hnone.mp hsound
    have houtcome : outcome = _ := ofNamedKind_of_faults locale kind hread hfaults
    rw [houtcome]
    refine ⟨⟨fun _ => by simpa using hsound, fun _ => ⟨_, rfl⟩⟩, ?_, fun h => absurd h hsound⟩
    rintro _ ⟨⟩
    exact ⟨rfl, rfl, htold⟩

end Selector

end PluralForms
