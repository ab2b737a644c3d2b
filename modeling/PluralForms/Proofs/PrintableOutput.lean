import PluralForms.Diagnostic.Wording
import PluralForms.Proofs.HiddenSource
import PluralForms.Proofs.ReportLines

/-!
# Texts forge no lines

A diagnostic holds texts from outside in its message, its hint and its rule.  Whatever these are,
without colours the one line and the object are printable, and a report has just the lines of its
parts, all of them printable.
-/

namespace PluralForms

/-! ## Objects -/

namespace Text

theorem MadeOf.intercalate {p : Char → Prop} {mark : String} (hmark : MadeOf p mark)
    {texts : List String} (htexts : ∀ text ∈ texts, MadeOf p text) :
    MadeOf p (mark.intercalate texts) := by
  induction texts with
  | nil =>
      rw [String.intercalate_nil]
      exact nofun
  | cons text rest ih =>
      obtain ⟨htext, hrest⟩ := List.forall_mem_cons.mp htexts
      cases rest with
      | nil => rwa [String.intercalate_singleton]
      | cons next others =>
          rw [String.intercalate_cons_cons]
          exact (htext.append hmark).append (ih hrest)

namespace Json

/-- What stands for a character that needs an escape is printable as a whole. -/
theorem isPrintable_of_mem_escapeChar {c d : Char} (hc : isPrintable c = true)
    (h : d ∈ escapeChar c) : isPrintable d = true := by
  have htable : (escaped.all fun a => (escapeChar a).all isPrintable) = true := by
    decide +kernel
  by_cases hmem : c ∈ escaped
  · exact List.all_eq_true.mp (List.all_eq_true.mp htable c hmem) d h
  · rw [(escapeChar_of_not_mem hmem).1, List.mem_singleton] at h
    exact h ▸ hc

theorem printable_string {text : String} (h : Printable text) : Printable (string text) := by
  intro d hd
  rw [string, String.toList_ofList, List.mem_append, List.mem_cons, List.mem_singleton] at hd
  rcases hd with (rfl | hmem) | rfl
  · decide
  · obtain ⟨c, hc, hd⟩ := List.mem_flatMap.mp hmem
    exact isPrintable_of_mem_escapeChar (h c hc) hd
  · decide

inductive PrintableMember : String × Value → Prop where
  | text {name value : String} (hname : Printable name) (hvalue : Printable value) :
      PrintableMember (name, .text value)
  | number {name : String} {value : Nat} (hname : Printable name) :
      PrintableMember (name, .number value)

theorem PrintableMember.render {m : String × Value} (h : PrintableMember m) :
    Printable (string m.1 ++ ": " ++ m.2.render) := by
  cases h with
  | text hname hvalue =>
      exact ((printable_string hname).append (by decide)).append (printable_string hvalue)
  | number hname =>
      exact ((printable_string hname).append (by decide)).append (printable_toString _)

theorem printable_object {members : List (String × Value)}
    (h : ∀ m ∈ members, PrintableMember m) : Printable (object members) := by
  have hmembers : Printable
      (", ".intercalate (members.map fun m => string m.1 ++ ": " ++ m.2.render)) := by
    refine MadeOf.intercalate (show Printable ", " by decide) ?_
    intro text htext
    obtain ⟨m, hm, rfl⟩ := List.mem_map.mp htext
    exact (h m hm).render
  exact (Printable.append (by decide) hmembers).append (by decide)

end Json

end Text

/-! ## Wordings -/

namespace Diagnostic

/-- Made by one of the functions that word a diagnostic, from any texts. -/
inductive Worded : Diagnostic → Prop where
  | unexpectedToken (source : String) (position : Nat) (found : String) (expected : List String) :
      Worded (.unexpectedToken source position found expected)
  | unexpectedEnd (source : String) (position : Nat) (expected : List String) :
      Worded (.unexpectedEnd source position expected)
  | invalidOperand (source : String) (position : Nat) (name : String) :
      Worded (.invalidOperand source position name)
  | invalidNumber (source : String) (position : Nat) (text reason : String) :
      Worded (.invalidNumber source position text reason)
  | invalidDecimalString (value reason : String) : Worded (.invalidDecimalString value reason)
  | operandOverflow (value reason : String) : Worded (.operandOverflow value reason)
  | localeNotFound (locale kind : String) : Worded (.localeNotFound locale kind)
  | engineBuildFailed (locale kind : String) (categories : List String) :
      Worded (.engineBuildFailed locale kind categories)

open Text

variable {d : Diagnostic}

theorem present?_expectedHint (expected : List String) :
    Style.present? (expectedHint expected) = expectedHint expected := by
  unfold expectedHint
  split
  · rfl
  · simp [Style.present?]

/-- No hint is an empty text, so a report leaves none out. -/
theorem Worded.present?_hint (h : d.Worded) : Style.present? d.hint = d.hint := by
  cases h with
  | unexpectedToken source position found expected => exact present?_expectedHint expected
  | unexpectedEnd source position expected => exact present?_expectedHint expected
  | _ => rfl

theorem Worded.exists_helpUrl (h : d.Worded) :
    ∃ url ∈ [rulesUrl, operandsUrl, chartsUrl], d.helpUrl = some url := by
  cases h <;> exact ⟨_, by decide, rfl⟩

theorem Worded.present?_helpUrl (h : d.Worded) : Style.present? d.helpUrl = d.helpUrl := by
  have hthree : ∀ url ∈ [rulesUrl, operandsUrl, chartsUrl],
      Style.present? (some url) = some url := by
    decide +kernel
  obtain ⟨address, haddress, hurl⟩ := h.exists_helpUrl
  rw [hurl]
  exact hthree address haddress

theorem Worded.printable_helpUrl (h : d.Worded) : ∀ url ∈ d.helpUrl, Printable url := by
  have hthree : ∀ url ∈ [rulesUrl, operandsUrl, chartsUrl], Printable url := by
    decide +kernel
  obtain ⟨address, haddress, hurl⟩ := h.exists_helpUrl
  intro url hmem
  rw [hurl] at hmem
  cases hmem
  exact hthree address haddress

end Diagnostic

/-! ## Layouts -/

namespace Style

open Text

variable {style : Style} {d : Diagnostic}

theorem printable_severityLabel (hcolor : style.color = false) (severity : Severity) :
    Printable (style.severityLabel severity) := by
  simp only [severityLabel, hcolor]
  cases severity <;> decide

theorem printable_oneLine (style : Style) (d : Diagnostic) :
    Printable (d.code.name ++ ": " ++ style.clean d.message) :=
  ((printable_name d.code).append (by decide)).append (style.printable_clean d.message)

theorem printable_of_mem_members (hurl : ∀ url ∈ d.helpUrl, Printable url)
    {m : String × Json.Value} (h : m ∈ style.members d) : Json.PrintableMember m := by
  have hseverity : Printable d.severity.name := by
    cases d.severity <;> decide
  simp only [members, List.mem_append] at h
  rcases h with (((hfixed | hspan) | hsource) | hhint) | hnote
  · simp only [List.mem_cons, List.not_mem_nil, or_false] at hfixed
    rcases hfixed with rfl | rfl | rfl | rfl
    · exact .text (by decide) (printable_name d.code)
    · exact .number (by decide)
    · exact .text (by decide) (style.printable_clean d.message)
    · exact .text (by decide) hseverity
  · split at hspan
    · cases hspan
    · simp only [List.mem_cons, List.not_mem_nil, or_false] at hspan
      rcases hspan with rfl | rfl <;> exact .number (by decide)
  · obtain ⟨source, -, rfl⟩ := List.mem_map.mp hsource
    exact .text (by decide) (style.printable_clean source)
  · obtain ⟨hint, -, rfl⟩ := List.mem_map.mp hhint
    exact .text (by decide) (style.printable_clean hint)
  · obtain ⟨url, hmem, rfl⟩ := List.mem_map.mp hnote
    exact .text (by decide) (hurl url (Option.mem_filter_iff.mp (Option.mem_toList.mp hmem)).1)

/-- How many lines a report has, told from the parts that are there. -/
def lineCount (sanitize span source hint helpUrl : Bool) : Nat :=
  1 + (if span then 1 + (if source && !sanitize then 2 else 0) else 0) + hint.toNat + helpUrl.toNat

theorem length_placeLines (style : Style) (d : Diagnostic) :
    (style.placeLines d).length =
      if d.span.isSome then 1 + (if d.source.isSome && !style.sanitize then 2 else 0) else 0 := by
  unfold placeLines
  cases d.span with
  | none => rfl
  | some span =>
      cases d.source with
      | none => rfl
      | some source => cases style.sanitize <;> rfl

theorem length_reportLines (hhint : present? d.hint = d.hint)
    (hurl : present? d.helpUrl = d.helpUrl) :
    (style.reportLines d).length =
      lineCount style.sanitize d.span.isSome d.source.isSome d.hint.isSome d.helpUrl.isSome := by
  have hcount : ∀ text : Option String, text.toList.length = text.isSome.toNat := by
    intro text
    cases text <;> rfl
  rw [reportLines, hhint, hurl, List.length_append, List.length_append, List.length_cons,
    List.length_map, List.length_map, hcount, hcount, length_placeLines, lineCount]
  omega

/-- Whatever the texts from which a diagnostic is made, one line and an object are printable.  A
report has nothing but its parts, each of them a printable line, and the number of these depends on
which parts there are. -/
theorem format_of_worded (style : Style) (hcolor : style.color = false) (hd : d.Worded) :
    (style.layout ≠ .report → Printable (style.format d)) ∧
    (style.layout = .report →
      (style.format d).toList.splitOn '\n' = (style.reportLines d).map String.toList ∧
      (∀ line ∈ style.reportLines d, Printable line) ∧
      (style.reportLines d).length =
        lineCount style.sanitize d.span.isSome d.source.isSome d.hint.isSome d.helpUrl.isSome) := by
  have hprintable := hd.printable_helpUrl
  constructor
  · intro hlayout
    unfold format
    split
    · next hreport => exact absurd hreport hlayout
    · exact printable_oneLine style d
    · exact Json.printable_object fun m => printable_of_mem_members hprintable
  · intro hlayout
    refine ⟨lines_format hlayout fun url hmem => oneLine_of_printable (hprintable url hmem), ?_,
      length_reportLines hd.present?_hint hd.present?_helpUrl⟩
    intro line hmem
    exact madeOf_of_mem_reportLines (fun _ => id) (printable_severityLabel hcolor d.severity)
      hprintable hmem

/-- A line feed in the rule and a forged line for the found token add no line to the report. -/
theorem format_of_worded_forged :
    let style : Style := {}
    let d := Diagnostic.unexpectedToken "n = 1\n" 5 "\nerror[FORGED]: x" ["relation"]
    style.color = false ∧ d.Worded ∧ (∀ line ∈ style.reportLines d, Printable line) ∧
      ((style.format d).toList.splitOn '\n').length = 6 := by
  intro style d
  have hworded : d.Worded := .unexpectedToken _ _ _ _
  obtain ⟨hlines, hprintable, hlength⟩ := (format_of_worded style rfl hworded).2 rfl
  refine ⟨rfl, hworded, hprintable, ?_⟩
  rw [hlines, List.length_map, hlength]
  rfl

end Style

end PluralForms
