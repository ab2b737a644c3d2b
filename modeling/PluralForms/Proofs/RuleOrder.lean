import PluralForms.Proofs.RuleFaults
import PluralForms.Proofs.Selection

/-!
# The order of a rule map

What is built from a rule map does not depend on the order in which its entries are given.  The
rules are brought into canonical order, all faults are told whichever comes first, and a value that
is no text is refused before any fault.
-/

namespace PluralForms

/-! ## Entries in another order -/

namespace RuleSet

variable {entries others : List (Category × Rule)}

theorem entered?_eq_of_perm (hnodup : (entries.map (·.1)).Nodup) (hperm : entries.Perm others)
    (category : Category) : entered? entries category = entered? others category := by
  have hothers : (others.map (·.1)).Nodup := (hperm.map _).nodup_iff.mp hnodup
  apply Option.ext
  intro rule
  rw [entered?_eq_some_iff hnodup, entered?_eq_some_iff hothers, hperm.mem_iff]

theorem ofEntries_eq_of_perm (hnodup : (entries.map (·.1)).Nodup) (hperm : entries.Perm others) :
    ofEntries entries = ofEntries others := by
  simp only [ofEntries, entered?_eq_of_perm hnodup hperm]

end RuleSet

section

variable {rules others : RuleMap}

/-- Entries in another order add the same rules and the same faults, in another order. -/
theorem readEntries_of_perm {entries : List (Category × Rule)} {errors : List (String × RuleError)}
    (hperm : rules.Perm others) (hread : readEntries rules = .ok (entries, errors)) :
    ∃ entries' errors', readEntries others = .ok (entries', errors') ∧ entries.Perm entries' ∧
      errors.Perm errors' := by
  obtain ⟨htexts, rfl, rfl⟩ := readEntries_eq_ok_iff.mp hread
  have hothers : RuleMap.AllTexts others :=
    fun entry hmem => htexts entry (hperm.mem_iff.mpr hmem)
  exact ⟨_, _, readEntries_of_allTexts hothers, hperm.filterMap _, hperm.filterMap _⟩

theorem names_refused_sublist (rules : RuleMap) :
    ((rules.filterMap refused?).map (·.1)).Sublist (rules.map (·.1)) := by
  induction rules with
  | nil => exact .slnil
  | cons entry rest ih =>
      cases htold : refused? entry with
      | none =>
          rw [List.filterMap_cons_none htold]
          exact ih.cons _
      | some told =>
          have hname : told.1 = entry.1 := by
            obtain ⟨name, value⟩ := entry
            cases value with
            | text source => exact (refused?_eq_some_iff.mp htold).1
            | foreign => cases htold
          rw [List.filterMap_cons_some htold, List.map_cons, List.map_cons, hname]
          exact ih.cons_cons _

/-- Reading ends at a value that is no text, whatever else is wrong. -/
theorem exists_readEntries_error_iff :
    (∃ error, readEntries rules = .error error) ↔
      ∃ name type written, (name, .foreign type written) ∈ rules := by
  constructor
  · rintro ⟨error, hread⟩
    by_contra hnone
    have htexts : rules.AllTexts := by
      rintro ⟨name, value⟩ hmem
      cases value with
      | text source => exact ⟨source, rfl⟩
      | foreign type written => exact absurd ⟨name, type, written, hmem⟩ hnone
    rw [readEntries_of_allTexts htexts] at hread
    cases hread
  · rintro ⟨name, type, written, hmem⟩
    cases hread : readEntries rules with
    | error error => exact ⟨error, rfl⟩
    | ok result =>
        obtain ⟨source, hsource⟩ := allTexts_of_readEntries hread _ hmem
        cases hsource

end

/-! ## Outcomes -/

namespace Selector

/-- Two outcomes tell the same: the same selector, the same faults under the same names, or that
some value is no text. -/
inductive SameOutcome : Except SelectorError Selector → Except SelectorError Selector → Prop where
  | built (selector : Selector) : SameOutcome (.ok selector) (.ok selector)
  | rejected {locale : String} {kind : RuleKind} {errors others : List (String × RuleError)}
      (hnames : (errors.map (·.1)).Nodup) (hperm : errors.Perm others) :
      SameOutcome (.error (.rejected ⟨locale, kind, errors⟩))
        (.error (.rejected ⟨locale, kind, others⟩))
  | notText (first second : NotText) :
      SameOutcome (.error (.notText first)) (.error (.notText second))

/-- Entries in another order come to the same, and a value that is no text is refused just where
there is one. -/
theorem sameOutcome_of_perm {κ : Type} (locale : String) (kind : RuleKind)
    {rules others : RuleMap} (hnames : (rules.map (·.1)).Nodup) (hperm : rules.Perm others) :
    let first := (ofNamedKind locale kind.name rules : _ × Journal κ).1
    let second := (ofNamedKind locale kind.name others : _ × Journal κ).1
    SameOutcome first second ∧
      ((∃ error, first = .error (.notText error)) ↔
        ∃ name type written, (name, .foreign type written) ∈ rules) := by
  intro first second
  rw [← exists_readEntries_error_iff]
  cases hread : readEntries rules with
  | error error =>
      obtain ⟨name, type, written, hmem⟩ := exists_readEntries_error_iff.mp ⟨error, hread⟩
      obtain ⟨other, hother⟩ := exists_readEntries_error_iff.mpr
        ⟨name, type, written, hperm.mem_iff.mp hmem⟩
      have hfirst : first = _ := ofNamedKind_of_notText locale kind hread
      have hsecond : second = _ := ofNamedKind_of_notText locale kind hother
      rw [hfirst, hsecond]
      exact ⟨.notText error other, fun _ => ⟨error, rfl⟩, fun _ => ⟨error, rfl⟩⟩
  | ok result =>
      obtain ⟨entries, errors⟩ := result
      obtain ⟨entries', errors', hread', hentries, herrors⟩ := readEntries_of_perm hperm hread
      by_cases hsound : errors = []
      · subst hsound
        cases herrors.nil_eq
        have hsame := RuleSet.ofEntries_eq_of_perm (nodup_entries hnames hread) hentries
        have hfirst : first = _ := ofNamedKind_of_sound locale kind hread
        have hsecond : second = _ := ofNamedKind_of_sound locale kind hread'
        rw [hfirst, hsecond, hsame]
        exact ⟨.built _, nofun, nofun⟩
      · have hfaults : errors' ≠ [] := by
          rintro rfl
          exact hsound herrors.eq_nil
        have htold : (errors.map (·.1)).Nodup := by
          obtain ⟨-, -, rfl⟩ := readEntries_eq_ok_iff.mp hread
          exact hnames.sublist (names_refused_sublist rules)
        have hfirst : first = _ := ofNamedKind_of_faults locale kind hread hsound
        have hsecond : second = _ := ofNamedKind_of_faults locale kind hread' hfaults
        rw [hfirst, hsecond]
        exact ⟨.rejected htold herrors, nofun, nofun⟩

/-- A name that is no category, a text that is no rule and one without condition. -/
def faultyRules : RuleMap :=
  [("lot", .text "n = 1"), ("one", .text "n ="), ("few", .text "n = 2..4"),
    ("two", .text " @integer 2")]

def faultyRulesErrors : List (String × RuleError) :=
  [("lot", unknownCategory "lot"),
    ("one", { problem := .ended .number, position := 3, source := "n =" }),
    ("two", { problem := .ended .relation, position := 1, source := " @integer 2" })]

/-- The three faults are told whichever way round the map is given. -/
theorem sameOutcome_of_perm_reversed :
    (faultyRules.map (·.1)).Nodup ∧ faultyRules.Perm faultyRules.reverse ∧
      ∃ others, faultyRulesErrors.Perm others ∧
        (ofNamedKind "xx" "cardinal" faultyRules.reverse : _ × Journal Unit).1 =
          .error (.rejected ⟨"xx", .cardinal, others⟩) := by
  have hnames : (faultyRules.map (·.1)).Nodup := by decide
  have hperm : faultyRules.Perm faultyRules.reverse := faultyRules.reverse_perm.symm
  have hfirst : (ofNamedKind "xx" "cardinal" faultyRules : _ × Journal Unit).1 =
      .error (.rejected ⟨"xx", .cardinal, faultyRulesErrors⟩) := by
    decide +kernel
  have hsame : SameOutcome (ofNamedKind "xx" "cardinal" faultyRules : _ × Journal Unit).1
      (ofNamedKind "xx" "cardinal" faultyRules.reverse : _ × Journal Unit).1 :=
    (sameOutcome_of_perm "xx" .cardinal hnames hperm).1
  rw [hfirst] at hsame
  refine ⟨hnames, hperm, ?_⟩
  generalize (ofNamedKind "xx" "cardinal" faultyRules.reverse : _ × Journal Unit).1 = second
    at hsame ⊢
  cases hsame with
  | rejected _ herrors => exact ⟨_, herrors, rfl⟩

end Selector

end PluralForms
