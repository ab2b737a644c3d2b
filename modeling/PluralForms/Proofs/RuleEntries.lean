import PluralForms.Proofs.RuleText
import PluralForms.Selector

/-!
# Entries of a rule map

Every entry is read by itself: it adds a rule or a fault, and no other entry has a say in that.
Without faults the rules stand for the entries one by one, under the names they were given.
-/

namespace PluralForms

def accepted? : String × RuleText → Option (Category × Rule)
  | (name, .text source) => (readEntry name source).toOption
  | (_, .foreign ..) => none

def refused? : String × RuleText → Option (String × RuleError)
  | (name, .text source) =>
      match readEntry name source with
      | .ok _ => none
      | .error e => some (name, e)
  | (_, .foreign ..) => none

theorem Category.name_injective {a b : Category} (h : a.name = b.name) : a = b := by
  have hname := Category.ofName?_name a
  rw [h, Category.ofName?_name] at hname
  exact (Option.some.inj hname).symm

theorem Category.ofName?_eq_some_iff {name : String} {category : Category} :
    Category.ofName? name = some category ↔ category.name = name := by
  constructor
  · exact Category.name_of_ofName?
  · rintro rfl
    exact Category.ofName?_name category

/-- An entry is accepted under the name of a category with a text that reads as a rule; only
`other` may go without a condition. -/
theorem readEntry_eq_ok_iff {name source : String} {category : Category} {rule : Rule} :
    readEntry name source = .ok (category, rule) ↔
      category.name = name ∧ Rule.parse source = .ok rule ∧
        (rule.condition = .always → category = .other) := by
  rw [← Category.ofName?_eq_some_iff, readEntry]
  cases Category.ofName? name with
  | none => simp
  | some found =>
      cases Rule.parse source with
      | error e => simp
      | ok read =>
          by_cases hmissing : (read.condition.isAlways && found != .other) = true
          · rw [Bool.and_eq_true, Condition.isAlways_iff, bne_iff_ne] at hmissing
            grind [Condition.isAlways_iff]
          · grind [Condition.isAlways_iff]

def RuleMap.AllTexts (rules : RuleMap) : Prop :=
  ∀ entry ∈ rules, ∃ source, entry.2 = .text source

theorem RuleMap.allTexts_cons {name source : String} {others : RuleMap} :
    RuleMap.AllTexts ((name, .text source) :: others) ↔ RuleMap.AllTexts others := by
  simp [AllTexts]

theorem readEntries_of_allTexts {rules : RuleMap} (h : rules.AllTexts) :
    readEntries rules = .ok (rules.filterMap accepted?, rules.filterMap refused?) := by
  induction rules with
  | nil => rfl
  | cons entry others ih =>
      obtain ⟨⟨source, hsource⟩, hothers⟩ := List.forall_mem_cons.mp h
      obtain ⟨name, value⟩ := entry
      cases hsource
      simp only [readEntries, ih hothers, List.filterMap_cons, accepted?, refused?]
      cases readEntry name source <;> rfl

theorem allTexts_of_readEntries {rules : RuleMap}
    {result : List (Category × Rule) × List (String × RuleError)}
    (h : readEntries rules = .ok result) : rules.AllTexts := by
  induction rules generalizing result with
  | nil => exact nofun
  | cons entry others ih =>
      obtain ⟨name, value⟩ := entry
      cases value with
      | foreign type written => cases h
      | text source =>
          rw [RuleMap.allTexts_cons]
          cases hothers : readEntries others with
          | error e => simp [readEntries, hothers] at h
          | ok more => exact ih hothers

/-- Reading ends at once where a value is no text, and else gives what the entries add. -/
theorem readEntries_eq_ok_iff {rules : RuleMap} {entries : List (Category × Rule)}
    {errors : List (String × RuleError)} :
    readEntries rules = .ok (entries, errors) ↔
      rules.AllTexts ∧ entries = rules.filterMap accepted? ∧
        errors = rules.filterMap refused? := by
  constructor
  · intro h
    have htexts := allTexts_of_readEntries h
    rw [readEntries_of_allTexts htexts] at h
    cases h
    exact ⟨htexts, rfl, rfl⟩
  · rintro ⟨htexts, rfl, rfl⟩
    exact readEntries_of_allTexts htexts

/-! ## Without faults -/

section

variable {rules : RuleMap} {entries : List (Category × Rule)}
  (h : readEntries rules = .ok (entries, []))

include h

theorem readEntry_of_no_faults {entry : String × RuleText} (hmem : entry ∈ rules) :
    ∃ source category rule, entry.2 = .text source ∧
      readEntry entry.1 source = .ok (category, rule) := by
  obtain ⟨htexts, -, hfaults⟩ := readEntries_eq_ok_iff.mp h
  obtain ⟨name, value⟩ := entry
  obtain ⟨source, rfl⟩ := htexts _ hmem
  have hfault : refused? (name, .text source) = none :=
    List.filterMap_eq_nil_iff.mp hfaults.symm _ hmem
  simp only [refused?] at hfault
  split at hfault
  next accepted haccepted => exact ⟨source, accepted.1, accepted.2, rfl, haccepted⟩
  next => cases hfault

theorem exists_rule_of_mem {category : Category} {value : RuleText}
    (hmem : (category.name, value) ∈ rules) :
    ∃ source rule, value = .text source ∧ readEntry category.name source = .ok (category, rule) := by
  obtain ⟨source, found, rule, hvalue, hread⟩ := readEntry_of_no_faults h hmem
  have hname := (readEntry_eq_ok_iff.mp hread).1
  cases Category.name_injective hname
  exact ⟨source, rule, hvalue, hread⟩

/-- The rules stand for the texts given under the names of their categories. -/
theorem mem_entries_iff {category : Category} {rule : Rule} :
    (category, rule) ∈ entries ↔
      ∃ source, (category.name, .text source) ∈ rules ∧ Rule.parse source = .ok rule := by
  obtain ⟨-, rfl, -⟩ := readEntries_eq_ok_iff.mp h
  rw [List.mem_filterMap]
  constructor
  · rintro ⟨⟨name, value⟩, hmem, haccepted⟩
    obtain ⟨source, found, read, hvalue, hread⟩ := readEntry_of_no_faults h hmem
    cases hvalue
    rw [accepted?, hread] at haccepted
    cases haccepted
    obtain ⟨rfl, hparse, -⟩ := readEntry_eq_ok_iff.mp hread
    exact ⟨source, hmem, hparse⟩
  · rintro ⟨source, hmem, hparse⟩
    obtain ⟨_, read, hvalue, hread⟩ := exists_rule_of_mem h hmem
    cases hvalue
    have hparsed := (readEntry_eq_ok_iff.mp hread).2.1
    rw [hparse] at hparsed
    cases hparsed
    exact ⟨_, hmem, by rw [accepted?, hread]; rfl⟩

theorem names_entries : entries.map (fun entry => entry.1.name) = rules.map (·.1) := by
  obtain ⟨-, rfl, -⟩ := readEntries_eq_ok_iff.mp h
  have haccepted : ∀ entry ∈ rules, ∃ read, accepted? entry = some read ∧
      read.1.name = entry.1 := by
    intro entry hmem
    obtain ⟨source, category, rule, hvalue, hread⟩ := readEntry_of_no_faults h hmem
    obtain ⟨name, value⟩ := entry
    cases hvalue
    exact ⟨(category, rule), by rw [accepted?, hread]; rfl, (readEntry_eq_ok_iff.mp hread).1⟩
  -- The reading of the whole map does not pass to its tail; that each entry was accepted does.
  clear h
  induction rules with
  | nil => rfl
  | cons entry others ih =>
      obtain ⟨⟨read, hread, hname⟩, hothers⟩ := List.forall_mem_cons.mp haccepted
      rw [List.filterMap_cons_some hread, List.map_cons, List.map_cons, hname, ih hothers]

end

end PluralForms
