import PluralForms.Proofs.ConditionMeaning
import PluralForms.Proofs.KeyedList
import PluralForms.Proofs.RuleEntries

/-!
# Selection

A selector is built from texts in any order, but asks them in canonical order: the category of a
number is the first one whose text, read as a condition, holds of it.
-/

namespace PluralForms

/-! ## The first of some categories -/

/-- The first candidate that has the property, or `other` where none has it. -/
def FirstAmong (candidates : List Category) (takes : Category → Prop) (category : Category) :
    Prop :=
  (∃ before after, candidates = before ++ category :: after ∧ takes category ∧
    ∀ earlier ∈ before, ¬takes earlier) ∨
  (category = .other ∧ ∀ candidate ∈ candidates, ¬takes candidate)

theorem FirstAmong.head {candidates : List Category} {takes : Category → Prop}
    {category : Category} (h : takes category) :
    FirstAmong (category :: candidates) takes category :=
  .inl ⟨[], candidates, rfl, h, nofun⟩

theorem FirstAmong.cons {candidates : List Category} {takes : Category → Prop}
    {first category : Category} (hfirst : ¬takes first) (h : FirstAmong candidates takes category) :
    FirstAmong (first :: candidates) takes category := by
  rcases h with ⟨before, after, rfl, htakes, hbefore⟩ | ⟨hother, hnone⟩
  · exact .inl ⟨first :: before, after, rfl, htakes, List.forall_mem_cons.mpr ⟨hfirst, hbefore⟩⟩
  · exact .inr ⟨hother, List.forall_mem_cons.mpr ⟨hfirst, hnone⟩⟩

/-- There is a text for the category, and read as a condition it holds of the number. -/
def RuleMap.Takes (rules : RuleMap) (x : Operands) (category : Category) : Prop :=
  ∃ source condition, (category.name, .text source) ∈ rules ∧
    Condition.parse source = .ok condition ∧ condition.holds? x = some true

/-- Samples aside, a rule is read as a condition. -/
theorem Rule.parse_condition {source : String} {rule : Rule} (h : Rule.parse source = .ok rule) :
    Condition.parse source = .ok rule.condition := by
  obtain ⟨stop, hcondition, -⟩ := Rule.readText_eq_ok_iff.mp (refusedIn_eq_ok_iff.mp h)
  exact Condition.parse_eq_ok_iff.mpr ⟨stop, hcondition⟩

namespace RuleSet

/-! ## Entries in canonical order -/

theorem entered?_eq_some_iff {entries : List (Category × Rule)}
    (hnodup : (entries.map (·.1)).Nodup) {category : Category} {rule : Rule} :
    entered? entries category = some rule ↔ (category, rule) ∈ entries := by
  have hdistinct : KeyedList.Distinct entries.reverse := by
    rw [KeyedList.Distinct, List.map_reverse]
    exact List.nodup_reverse.mpr hnodup
  rw [entered?, hdistinct.find?_eq_some_iff, List.mem_reverse]

/-- The ruled entries, taken in the order of some candidates. -/
def arranged (entries : List (Category × Rule)) (candidates : List Category) :
    List (Category × Rule) :=
  candidates.filterMap fun category => (entered? entries category).map (category, ·)

theorem arranged_cons_of_none {entries : List (Category × Rule)} {category : Category}
    (h : entered? entries category = none) (candidates : List Category) :
    arranged entries (category :: candidates) = arranged entries candidates := by
  simp [arranged, h]

theorem arranged_cons_of_some {entries : List (Category × Rule)} {category : Category} {rule : Rule}
    (h : entered? entries category = some rule) (candidates : List Category) :
    arranged entries (category :: candidates) = (category, rule) :: arranged entries candidates := by
  simp [arranged, h]

theorem map_fst_arranged (entries : List (Category × Rule)) (candidates : List Category) :
    (arranged entries candidates).map (·.1) =
      candidates.filter fun category => (entered? entries category).isSome := by
  induction candidates with
  | nil => rfl
  | cons category others ih =>
      cases h : entered? entries category with
      | none => simp [arranged_cons_of_none h, ih, h]
      | some rule => simp [arranged_cons_of_some h, ih, h]

/-- The first rule that holds is that of the first category whose rule holds. -/
theorem firstHolding?_arranged {x : Operands} (hx : x.Coherent) (entries : List (Category × Rule))
    (candidates : List Category) :
    ∃ category, Selector.firstHolding? x (arranged entries candidates) = some category ∧
      FirstAmong candidates
        (fun c => ∃ rule, entered? entries c = some rule ∧ rule.condition.holds? x = some true)
        category := by
  -- A candidate without a rule is passed over, as one whose rule does not hold.
  induction candidates with
  | nil => exact ⟨.other, rfl, .inr ⟨rfl, nofun⟩⟩
  | cons first others ih =>
      obtain ⟨category, hfirst, hamong⟩ := ih
      cases hentered : entered? entries first with
      | none =>
          rw [arranged_cons_of_none hentered]
          exact ⟨category, hfirst, hamong.cons (by simp [hentered])⟩
      | some rule =>
          rw [arranged_cons_of_some hentered, Selector.firstHolding?]
          have hanswer := Condition.holds?_eq hx rule.condition
          rw [hanswer]
          cases htruth : rule.condition.truth x with
          | false =>
              refine ⟨category, hfirst, hamong.cons ?_⟩
              rintro ⟨other, hother, htrue⟩
              cases hentered.symm.trans hother
              rw [hanswer, htruth] at htrue
              cases htrue
          | true => exact ⟨first, rfl, .head ⟨rule, hentered, by rw [hanswer, htruth]⟩⟩

end RuleSet

/-! ## Selectors -/

namespace Selector

theorem readEntries_of_ofNamedKind {κ : Type} {locale kind : String} {rules : RuleMap}
    {selector : Selector} {journal : Journal κ}
    (h : ofNamedKind locale kind rules = (.ok selector, journal)) :
    ∃ entries, readEntries rules = .ok (entries, []) ∧ selector.rules = .ofEntries entries := by
  unfold ofNamedKind at h
  split at h
  · cases h
  · unfold ofRules at h
    split at h
    · cases h
    · next entries hread =>
        cases h
        exact ⟨entries, hread, rfl⟩
    · cases h

section

variable {rules : RuleMap} {entries : List (Category × Rule)}
  (hnames : (rules.map (·.1)).Nodup) (hread : readEntries rules = .ok (entries, []))

include hnames hread

theorem nodup_entries : (entries.map (·.1)).Nodup := by
  have hnodup : ((entries.map (·.1)).map Category.name).Nodup := by
    rw [List.map_map]
    exact (names_entries hread).symm ▸ hnames
  exact List.Nodup.of_map _ hnodup

theorem entered?_eq_some_iff_parse {category : Category} {rule : Rule} :
    RuleSet.entered? entries category = some rule ↔
      ∃ source, (category.name, .text source) ∈ rules ∧ Rule.parse source = .ok rule := by
  rw [RuleSet.entered?_eq_some_iff (nodup_entries hnames hread), mem_entries_iff hread]

/-- A rule that was entered holds just when its text does. -/
theorem takes_iff {x : Operands} {category : Category} :
    (∃ rule, RuleSet.entered? entries category = some rule ∧
      rule.condition.holds? x = some true) ↔ rules.Takes x category := by
  constructor
  · rintro ⟨rule, hentered, hholds⟩
    obtain ⟨source, hmem, hparse⟩ := (entered?_eq_some_iff_parse hnames hread).mp hentered
    exact ⟨source, rule.condition, hmem, Rule.parse_condition hparse, hholds⟩
  · rintro ⟨source, condition, hmem, hcondition, hholds⟩
    obtain ⟨_, rule, hvalue, haccepted⟩ := exists_rule_of_mem hread hmem
    cases hvalue
    have hparse := (readEntry_eq_ok_iff.mp haccepted).2.1
    rw [Rule.parse_condition hparse] at hcondition
    cases hcondition
    exact ⟨rule, (entered?_eq_some_iff_parse hnames hread).mpr ⟨source, hmem, hparse⟩, hholds⟩

theorem isSome_entered?_iff {category : Category} :
    (RuleSet.entered? entries category).isSome = true ↔ category.name ∈ rules.map (·.1) := by
  rw [Option.isSome_iff_exists, List.mem_map]
  constructor
  · rintro ⟨rule, hentered⟩
    obtain ⟨source, hmem, -⟩ := (entered?_eq_some_iff_parse hnames hread).mp hentered
    exact ⟨_, hmem, rfl⟩
  · rintro ⟨⟨name, value⟩, hmem, rfl⟩
    obtain ⟨source, rule, rfl, haccepted⟩ := exists_rule_of_mem hread hmem
    have hparse := (readEntry_eq_ok_iff.mp haccepted).2.1
    exact ⟨rule, (entered?_eq_some_iff_parse hnames hread).mpr ⟨source, hmem, hparse⟩⟩

/-- The categories that are named, and `other`, in canonical order. -/
theorem categories_ofEntries :
    (RuleSet.ofEntries entries).categories = Category.all.filter fun category =>
      category = .other ∨ category.name ∈ rules.map (·.1) := by
  have hruled : (RuleSet.ofEntries entries).ruled = RuleSet.arranged entries Category.ruled := rfl
  rw [RuleSet.categories, RuleSet.toList, List.map_append, hruled, RuleSet.map_fst_arranged,
    Category.all, List.filter_append]
  congr 1
  apply List.filter_congr
  intro category hmem
  have hne := (Category.mem_ruled_iff category).mp hmem
  rw [Bool.eq_iff_iff, isSome_entered?_iff hnames hread, decide_eq_true_eq]
  exact (or_iff_right hne).symm

end

/-- The category of a number is the first in canonical order whose text holds of it, and `other`
where none does; the categories of a selector are the named ones and `other`. -/
theorem select?_eq_first {κ : Type} {locale kind : String} {rules : RuleMap} {selector : Selector}
    {journal : Journal κ} (hnames : (rules.map (·.1)).Nodup)
    (hbuilt : ofNamedKind locale kind rules = (.ok selector, journal)) :
    (∀ x, Operands.Displayed x → ∃ category, selector.select? x = some category ∧
      FirstAmong Category.ruled (rules.Takes x) category ∧ category ∈ selector.categories) ∧
    selector.categories = Category.all.filter (fun category =>
      category = .other ∨ category.name ∈ rules.map (·.1)) ∧
    ∀ name ∈ rules.map (·.1), ∃ category ∈ selector.categories, category.name = name := by
  obtain ⟨entries, hread, hrules⟩ := readEntries_of_ofNamedKind hbuilt
  have hcategories : selector.categories = Category.all.filter fun category =>
      category = .other ∨ category.name ∈ rules.map (·.1) := by
    rw [categories, hrules, categories_ofEntries hnames hread]
  have hmem : ∀ category : Category, category = .other ∨ category.name ∈ rules.map (·.1) →
      category ∈ selector.categories := by
    intro category h
    rw [hcategories, List.mem_filter, decide_eq_true_eq]
    exact ⟨category.mem_all, h⟩
  refine ⟨?_, hcategories, ?_⟩
  · intro x hx
    obtain ⟨category, hselected, hfirst⟩ :=
      RuleSet.firstHolding?_arranged hx.coherent entries Category.ruled
    have htakes : (fun c => ∃ rule, RuleSet.entered? entries c = some rule ∧
        rule.condition.holds? x = some true) = rules.Takes x := by
      funext c
      exact propext (takes_iff hnames hread)
    rw [htakes] at hfirst
    refine ⟨category, ?_, hfirst, hmem category ?_⟩
    · rw [select?, hrules]
      exact hselected
    · rcases hfirst with ⟨before, after, -, ⟨source, condition, hgiven, -⟩, -⟩ | ⟨hother, -⟩
      · exact .inr (List.mem_map_of_mem hgiven)
      · exact .inl hother
  · intro name hname
    obtain ⟨entry, hgiven, rfl⟩ := List.mem_map.mp hname
    obtain ⟨source, category, rule, -, haccepted⟩ := readEntry_of_no_faults hread hgiven
    have heq := (readEntry_eq_ok_iff.mp haccepted).1
    exact ⟨category, hmem category (.inr (heq ▸ hname)), heq⟩

/-- Texts that overlap, not in canonical order, with a condition for `other` as well. -/
def overlapping : RuleMap :=
  [("many", .text "n = 2"), ("few", .text "n = 2..4 @integer 2~4"), ("other", .text "n = 1")]

/-- The condition that the value is one of some integers. -/
def valueBetween (lower upper : Nat) (h : lower ≤ upper) : Condition :=
  ⟨[[{ operand := .n, comparison := .membership ⟨⟨lower, upper, h⟩, []⟩ }]]⟩

def overlappingSelector : Selector where
  locale := "xx"
  kind := .cardinal
  rules := {
    ruled := [
      (.few, {
        condition := valueBetween 2 4 (by decide)
        samples := { integer := some { ranges := [⟨"2", "4"⟩], openEnded := false } } }),
      (.many, { condition := valueBetween 2 2 (by decide) })]
    other := { condition := valueBetween 1 1 (by decide) } }

/-- Two takes `few`, which comes before `many`; one and nine take `other`, whose own text does not
count. -/
theorem select?_eq_first_overlapping :
    ofNamedKind "xx" "cardinal" overlapping = (.ok overlappingSelector, ([] : Journal Unit)) ∧
      FirstAmong Category.ruled (overlapping.Takes (.ofNat 2)) .few ∧
      FirstAmong Category.ruled (overlapping.Takes (.ofNat 1)) .other ∧
      FirstAmong Category.ruled (overlapping.Takes (.ofNat 9)) .other := by
  have hbuilt : ofNamedKind "xx" "cardinal" overlapping =
      (.ok overlappingSelector, ([] : Journal Unit)) := by
    decide +kernel
  obtain ⟨hselect, -⟩ := select?_eq_first (by decide) hbuilt
  have hfirst : ∀ (n : Nat) (category : Category), Operands.ofInt n = .ok (.ofNat n) →
      overlappingSelector.select? (.ofNat n) = some category →
      FirstAmong Category.ruled (overlapping.Takes (.ofNat n)) category := by
    intro n category hn hselected
    obtain ⟨_, hanswer, hfirst, -⟩ := hselect _ (.ofInt hn)
    cases hselected.symm.trans hanswer
    exact hfirst
  exact ⟨hbuilt, hfirst 2 .few rfl rfl, hfirst 1 .other rfl rfl, hfirst 9 .other rfl rfl⟩

end Selector

end PluralForms
