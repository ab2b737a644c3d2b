import PluralForms.Proofs.Refusals
import PluralForms.Proofs.Selection

/-!
# Annotations behind a condition

What stands from the first marker on takes no part in the reading of a condition, whatever it is.
So texts that differ there have the same condition or the same refusal, and selectors that are built
from them select the same categories.
-/

namespace PluralForms

open Text

/-! ## Scanning up to the marker -/

section Scan

variable {rest : List Char} (hrest : Ahead (· = sampleMarker) rest)

include hrest

theorem ahead_of_marker {p : Char → Bool} (hmarker : p sampleMarker = false) :
    Ahead (fun c => p c = false) rest := by
  refine hrest.mono ?_
  rintro c rfl
  exact hmarker

theorem takeWhile_append_marker {p : Char → Bool} (hmarker : p sampleMarker = false)
    (chars : List Char) : (chars ++ rest).takeWhile p = chars.takeWhile p := by
  induction chars with
  | nil => exact takeWhile_run nofun (ahead_of_marker hrest hmarker)
  | cons c tail ih =>
      by_cases hc : p c = true
      · simp [hc, ih]
      · simp [hc]

theorem dropWhile_append_marker {p : Char → Bool} (hmarker : p sampleMarker = false)
    (chars : List Char) : (chars ++ rest).dropWhile p = chars.dropWhile p ++ rest := by
  induction chars with
  | nil => exact dropWhile_run nofun (ahead_of_marker hrest hmarker)
  | cons c tail ih =>
      by_cases hc : p c = true
      · simp [hc, ih]
      · simp [hc]

/-- A lexeme in front of the marker is in the text before it. -/
theorem append_marker_eq_iff {chars piece after : List Char} (hpiece : sampleMarker ∉ piece) :
    piece ++ after = chars ++ rest ↔ ∃ tail, piece ++ tail = chars ∧ tail ++ rest = after := by
  constructor
  · intro h
    rcases List.append_eq_append_iff.mp h with ⟨tail, hchars, hafter⟩ | ⟨beyond, htext, hbeyond⟩
    · exact ⟨tail, hchars.symm, hafter.symm⟩
    · cases beyond with
      | nil =>
          rw [List.append_nil] at htext
          rw [List.nil_append] at hbeyond
          exact ⟨[], by rw [List.append_nil, htext], hbeyond⟩
      | cons c more =>
          have hmarker : c = sampleMarker := hrest c (by rw [hbeyond]; rfl)
          exact absurd (by rw [htext, hmarker]; simp) hpiece
  · rintro ⟨tail, rfl, rfl⟩
    exact (List.append_assoc piece tail rest).symm

/-- No lexeme reaches into an annotation, and none is cut short by it. -/
theorem lexeme?_append_marker (chars : List Char) :
    lexeme? (chars ++ rest) =
      (lexeme? chars).map fun piece => { piece with rest := piece.rest ++ rest } := by
  apply Option.ext
  rintro ⟨kind, piece, after⟩
  rw [lexeme?_eq_some_iff, Option.map_eq_some_iff]
  constructor
  · rintro ⟨hchars, hpiece, hnext⟩
    obtain ⟨tail, rfl, rfl⟩ := (append_marker_eq_iff hrest hpiece.marker_not_mem).mp hchars
    have htail : Ahead (fun c => kind.continues c = false) tail := by
      intro c hc
      refine hnext c ?_
      cases tail with
      | nil => cases hc
      | cons d more => exact hc
    exact ⟨⟨kind, piece, tail⟩, lexeme?_eq_some_iff.mpr ⟨rfl, hpiece, htail⟩, rfl⟩
  · rintro ⟨⟨kind', piece', tail⟩, hlexeme, heq⟩
    obtain ⟨rfl, hpiece, hnext⟩ := lexeme?_eq_some_iff.mp hlexeme
    cases heq
    exact ⟨(List.append_assoc _ _ _).symm, hpiece,
      hnext.append (ahead_of_marker hrest (continues_sampleMarker _))⟩

def Text.Suffix.extend (s : Suffix) (more : List Char) : Suffix :=
  ⟨s.position, s.chars ++ more⟩

theorem skipBlanks_extend (s : Suffix) : (s.extend rest).skipBlanks = s.skipBlanks.extend rest := by
  have htake := takeWhile_append_marker (p := isBlank) hrest (by decide) s.chars
  have hdrop := dropWhile_append_marker (p := isBlank) hrest (by decide) s.chars
  simp only [Suffix.skipBlanks, Suffix.dropRun, Suffix.extend, htake, hdrop]

theorem nextToken_extend (s : Suffix) :
    nextToken (s.extend rest) =
      (nextToken s).map fun found => (found.1, found.2.extend rest) := by
  rw [nextToken, nextToken, skipBlanks_extend hrest]
  generalize s.skipBlanks = start
  obtain ⟨position, chars⟩ := start
  have hlexeme := lexeme?_append_marker hrest chars
  cases chars with
  | nil =>
      cases rest with
      | nil => rfl
      | cons d others =>
          have hd : d = sampleMarker := hrest d rfl
          simp [Suffix.extend, Except.map, hd]
  | cons c tail =>
      rw [List.cons_append] at hlexeme
      by_cases hc : c = sampleMarker
      · simp [Suffix.extend, Except.map, hc]
      · simp only [Suffix.extend, List.cons_append, if_neg hc, hlexeme]
        cases lexeme? (c :: tail) with
        | none => rfl
        | some piece => rfl

/-- The tokens and the end of a condition do not depend on the annotation behind it. -/
theorem scan_extend (s : Suffix) : scan (s.extend rest) = scan s := by
  fun_induction scan s with
  | case1 s issue hnext =>
      have hextended := nextToken_extend hrest s
      rw [hnext] at hextended
      rw [scan]
      split <;> simp_all [Except.map]
  | case2 s after hnext =>
      have hextended : nextToken (s.extend rest) = .ok (none, after.extend rest) := by
        rw [nextToken_extend hrest, hnext]
        rfl
      show scan (s.extend rest) = .ok ([], (after.extend rest).position)
      exact scan_of_none hextended
  | case3 s token after hnext issue hafter ih =>
      have hextended := nextToken_extend hrest s
      rw [hnext] at hextended
      rw [scan]
      split <;> simp_all [Except.map]
  | case4 s token after hnext tokens stop hafter ih =>
      have hextended : nextToken (s.extend rest) = .ok (some token, after.extend rest) := by
        rw [nextToken_extend hrest, hnext]
        rfl
      exact scan_of_some hextended (ih.trans hafter)

/-- Within the longest allowed rule, an annotation changes nothing in the condition. -/
theorem Condition.readText_append_marker {text : List Char}
    (hlength : (text ++ rest).length ≤ maxRuleLength) :
    readText (text ++ rest) = readText text := by
  have hshort : text.length ≤ maxRuleLength := by
    rw [List.length_append] at hlength
    omega
  have hscan : scan (.whole (text ++ rest)) = scan (.whole text) := scan_extend hrest (.whole text)
  simp only [readText, checkLength_eq_ok_iff.mpr hlength, checkLength_eq_ok_iff.mpr hshort, hscan]

end Scan

/-! ## Refusals -/

/-- What is reported of a refusal, the text that was refused left aside. -/
structure Report where
  kind : Problem.Kind
  position : Nat
  message : String
  deriving DecidableEq, Repr

def RuleError.report (e : RuleError) : Report where
  kind := e.kind
  position := e.position
  message := e.message

def Issue.report (issue : Issue) : Report :=
  RuleError.report { issue with source := "" }

/-- The report tells nothing of the text but what the issue quotes. -/
theorem report_of_issue (issue : Issue) (source : String) :
    RuleError.report { issue with source := source } = issue.report := by
  obtain ⟨problem, position⟩ := issue
  cases problem <;> rfl

theorem mapError_report_refusedIn (source : String) (outcome : Except Issue α) :
    (refusedIn source outcome).mapError RuleError.report = outcome.mapError Issue.report := by
  cases outcome with
  | error issue => exact congrArg Except.error (report_of_issue issue source)
  | ok a => rfl

theorem refusedIn_eq_error_iff {source : String} {outcome : Except Issue α} {e : RuleError} :
    refusedIn source outcome = .error e ↔ outcome = .error e.toIssue ∧ e.source = source := by
  cases outcome with
  | ok a =>
      constructor
      · intro h
        cases h
      · intro h
        cases h.1
  | error issue =>
      constructor
      · intro h
        cases h
        exact ⟨rfl, rfl⟩
      · rintro ⟨hissue, rfl⟩
        cases hissue
        rfl

theorem Condition.parse_eq_error_iff {source : String} {e : RuleError} :
    parse source = .error e ↔ readText source.toList = .error e.toIssue ∧ e.source = source := by
  rw [parse, refusedIn_eq_error_iff]
  cases readText source.toList <;> simp [Except.map]

theorem Rule.parse_eq_error_iff {source : String} {e : RuleError} :
    parse source = .error e ↔ readText source.toList = .error e.toIssue ∧ e.source = source :=
  refusedIn_eq_error_iff

theorem Rule.parse_error_of_condition {source : String} {e : RuleError}
    (h : Condition.parse source = .error e) : Rule.parse source = .error e := by
  obtain ⟨hissue, hsource⟩ := Condition.parse_eq_error_iff.mp h
  refine Rule.parse_eq_error_iff.mpr ⟨?_, hsource⟩
  rw [readText, hissue]
  rfl

/-- Where the condition is in order, what is refused stands behind it. -/
theorem Rule.marker_le_of_parse_error {source : String} {condition : Condition} {e : RuleError}
    (hcondition : Condition.parse source = .ok condition) (h : Rule.parse source = .error e) :
    source.toList.idxOf sampleMarker ≤ e.position := by
  obtain ⟨stop, hread⟩ := Condition.parse_eq_ok_iff.mp hcondition
  rcases readText_error (Rule.parse_eq_error_iff.mp h).1 with hrefused | ⟨-, -, hle⟩
  · rw [hread] at hrefused
    cases hrefused
  · exact hle

/-! ## Annotated texts -/

/-- Nothing, or a text that begins with the marker. -/
def IsAnnotationText (text : String) : Prop :=
  Ahead (· = sampleMarker) text.toList

instance (text : String) : Decidable (IsAnnotationText text) :=
  decidable_of_iff (text.toList.head?.all (· == sampleMarker) = true)
    (by simp [IsAnnotationText, Ahead, Option.all_eq_true])

/-- The same condition with two annotations behind it. -/
inductive DifferBehindMarker : String → String → Prop where
  | intro {text first second} (htext : sampleMarker ∉ text.toList)
      (hfirst : IsAnnotationText first) (hsecond : IsAnnotationText second) :
      DifferBehindMarker (text ++ first) (text ++ second)

theorem Condition.parse_report_append {text annotation : String} (h : IsAnnotationText annotation)
    (hlength : (text ++ annotation).length ≤ maxRuleLength) :
    (parse (text ++ annotation)).mapError RuleError.report =
      ((readText text.toList).map (·.1)).mapError Issue.report := by
  rw [← String.length_toList, String.toList_append] at hlength
  rw [parse, mapError_report_refusedIn, String.toList_append, readText_append_marker h hlength]

theorem DifferBehindMarker.report_eq {source other : String} (h : DifferBehindMarker source other)
    (hsource : source.length ≤ maxRuleLength) (hother : other.length ≤ maxRuleLength) :
    (Condition.parse source).mapError RuleError.report =
      (Condition.parse other).mapError RuleError.report := by
  cases h with
  | intro htext hfirst hsecond =>
      rw [Condition.parse_report_append hfirst hsource,
        Condition.parse_report_append hsecond hother]

theorem DifferBehindMarker.symm {source other : String} (h : DifferBehindMarker source other) :
    DifferBehindMarker other source := by
  cases h with
  | intro htext hfirst hsecond => exact .intro htext hsecond hfirst

theorem length_le_of_parse {source : String} {condition : Condition}
    (h : Condition.parse source = .ok condition) : source.length ≤ maxRuleLength :=
  (((Condition.parse_eq_ok_iff_derives source).1 condition).mp h).1

theorem DifferBehindMarker.parse_ok {source other : String} (h : DifferBehindMarker source other)
    (hother : other.length ≤ maxRuleLength) {condition : Condition}
    (hparse : Condition.parse source = .ok condition) :
    Condition.parse other = .ok condition := by
  have hreport := h.report_eq (length_le_of_parse hparse) hother
  rw [hparse] at hreport
  cases hread : Condition.parse other with
  | error e =>
      rw [hread] at hreport
      cases hreport
  | ok found =>
      rw [hread] at hreport
      cases hreport
      rfl

/-! ## Selectors -/

/-- Maps with the same names, whose texts differ in annotations alone. -/
structure RuleMap.DifferInAnnotations (rules others : RuleMap) : Prop where
  names : ∀ name, name ∈ rules.map (·.1) ↔ name ∈ others.map (·.1)
  texts : ∀ name source other, (name, .text source) ∈ rules → (name, .text other) ∈ others →
    DifferBehindMarker source other

namespace Selector

theorem entered?_condition_iff {rules : RuleMap} {entries : List (Category × Rule)}
    (hnames : (rules.map (·.1)).Nodup) (hread : readEntries rules = .ok (entries, []))
    {category : Category} {condition : Condition} :
    (RuleSet.entered? entries category).map (·.condition) = some condition ↔
      ∃ source, (category.name, .text source) ∈ rules ∧
        Condition.parse source = .ok condition := by
  rw [Option.map_eq_some_iff]
  constructor
  · rintro ⟨rule, hentered, rfl⟩
    obtain ⟨source, hmem, hparse⟩ := (entered?_eq_some_iff_parse hnames hread).mp hentered
    exact ⟨source, hmem, Rule.parse_condition hparse⟩
  · rintro ⟨source, hmem, hcondition⟩
    obtain ⟨_, rule, hvalue, haccepted⟩ := exists_rule_of_mem hread hmem
    cases hvalue
    have hparse := (readEntry_eq_ok_iff.mp haccepted).2.1
    rw [Rule.parse_condition hparse] at hcondition
    cases hcondition
    exact ⟨rule, (entered?_eq_some_iff_parse hnames hread).mpr ⟨source, hmem, hparse⟩, rfl⟩

theorem firstHolding?_congr {x : Operands} {entries others : List (Category × Rule)}
    (h : ∀ category, (RuleSet.entered? entries category).map (·.condition) =
      (RuleSet.entered? others category).map (·.condition)) (candidates : List Category) :
    firstHolding? x (RuleSet.arranged entries candidates) =
      firstHolding? x (RuleSet.arranged others candidates) := by
  induction candidates with
  | nil => rfl
  | cons category more ih =>
      have hcategory := h category
      cases hentered : RuleSet.entered? entries category with
      | none =>
          have hother : RuleSet.entered? others category = none := by
            simpa [hentered] using hcategory.symm
          rw [RuleSet.arranged_cons_of_none hentered, RuleSet.arranged_cons_of_none hother, ih]
      | some rule =>
          rw [hentered] at hcategory
          obtain ⟨other, hother, hcondition⟩ := Option.map_eq_some_iff.mp hcategory.symm
          rw [RuleSet.arranged_cons_of_some hentered, RuleSet.arranged_cons_of_some hother,
            firstHolding?, firstHolding?, hcondition, ih]

section

variable {rules others : RuleMap} {entries otherEntries : List (Category × Rule)}
  (hnames : (rules.map (·.1)).Nodup) (hotherNames : (others.map (·.1)).Nodup)
  (hdiffer : rules.DifferInAnnotations others) (hread : readEntries rules = .ok (entries, []))
  (hotherRead : readEntries others = .ok (otherEntries, []))

include hdiffer hotherRead in
theorem parse_of_differ {category : Category} {condition : Condition}
    (h : ∃ source, (category.name, .text source) ∈ rules ∧
      Condition.parse source = .ok condition) :
    ∃ source, (category.name, .text source) ∈ others ∧
      Condition.parse source = .ok condition := by
  obtain ⟨source, hmem, hparse⟩ := h
  obtain ⟨⟨name, value⟩, hgiven, rfl⟩ :=
    List.mem_map.mp ((hdiffer.names category.name).mp (List.mem_map_of_mem hmem))
  obtain ⟨other, _, rule, hvalue, haccepted⟩ := readEntry_of_no_faults hotherRead hgiven
  cases hvalue
  have hotherParse := Rule.parse_condition (readEntry_eq_ok_iff.mp haccepted).2.1
  have htexts := hdiffer.texts _ _ _ hmem hgiven
  exact ⟨other, hgiven, htexts.parse_ok (length_le_of_parse hotherParse) hparse⟩

include hnames hotherNames hdiffer hread hotherRead in
theorem entered?_condition_eq (category : Category) :
    (RuleSet.entered? entries category).map (·.condition) =
      (RuleSet.entered? otherEntries category).map (·.condition) := by
  have hback : others.DifferInAnnotations rules :=
    ⟨fun name => (hdiffer.names name).symm,
      fun name source other h h' => (hdiffer.texts name other source h' h).symm⟩
  apply Option.ext
  intro condition
  rw [entered?_condition_iff hnames hread, entered?_condition_iff hotherNames hotherRead]
  exact ⟨parse_of_differ hdiffer hotherRead, parse_of_differ hback hread⟩

end

/-- Annotations decide nothing.  Two texts that differ in them alone, and are not too long, have the
same condition or refusals with the same report; a rule has the condition of its text, a fault in
the condition is the fault of the rule, and every other fault stands behind the condition.  Two
selectors of maps that differ in annotations alone select the same category for all operands. -/
theorem annotations_decide_nothing :
    (∀ text first second : String, sampleMarker ∉ text.toList →
      IsAnnotationText first → IsAnnotationText second →
      (text ++ first).length ≤ maxRuleLength → (text ++ second).length ≤ maxRuleLength →
      (Condition.parse (text ++ first)).mapError RuleError.report =
          (Condition.parse (text ++ second)).mapError RuleError.report ∧
        (∀ rule, Rule.parse (text ++ first) = .ok rule →
          Condition.parse (text ++ first) = .ok rule.condition) ∧
        (∀ e, Condition.parse (text ++ first) = .error e →
          ∃ f, Rule.parse (text ++ first) = .error f ∧ f.kind = e.kind ∧
            f.position = e.position) ∧
        (∀ condition e, Condition.parse (text ++ first) = .ok condition →
          Rule.parse (text ++ first) = .error e → text.length ≤ e.position)) ∧
    (∀ (rules others : RuleMap), (rules.map (·.1)).Nodup → (others.map (·.1)).Nodup →
      rules.DifferInAnnotations others →
      ∀ (locale kind otherLocale otherKind : String) (selector other : Selector)
        (journal otherJournal : Journal Unit),
        ofNamedKind locale kind rules = (.ok selector, journal) →
        ofNamedKind otherLocale otherKind others = (.ok other, otherJournal) →
        ∀ x, selector.select? x = other.select? x) := by
  constructor
  · intro text first second htext hfirst hsecond hlength hotherLength
    refine ⟨?_, fun rule => Rule.parse_condition, ?_, ?_⟩
    · exact (DifferBehindMarker.intro htext hfirst hsecond).report_eq hlength hotherLength
    · intro e hrefused
      exact ⟨e, Rule.parse_error_of_condition hrefused, rfl, rfl⟩
    · intro condition e hcondition hrefused
      have hmarker := Rule.marker_le_of_parse_error hcondition hrefused
      rw [String.toList_append, List.idxOf_append_of_notMem htext, String.length_toList] at hmarker
      omega
  · intro rules others hnames hotherNames hdiffer locale kind otherLocale otherKind selector other
      journal otherJournal hbuilt hotherBuilt x
    obtain ⟨entries, hread, hrules⟩ := readEntries_of_ofNamedKind hbuilt
    obtain ⟨otherEntries, hotherRead, hotherRules⟩ := readEntries_of_ofNamedKind hotherBuilt
    rw [select?, select?, hrules, hotherRules]
    exact firstHolding?_congr
      (entered?_condition_eq hnames hotherNames hdiffer hread hotherRead) Category.ruled

def annotatedRules : RuleMap :=
  [("one", .text "n = 1..3@integer 1"), ("few", .text "n = 5..9 @decimal 5.0, …")]

def plainRules : RuleMap :=
  [("few", .text "n = 5..9 @integer 5~9"), ("one", .text "n = 1..3")]

def oneFewSelector (one few : Samples) : Selector where
  locale := "xx"
  kind := .cardinal
  rules := {
    ruled := [
      (.one, { condition := valueBetween 1 3 (by decide), samples := one }),
      (.few, { condition := valueBetween 5 9 (by decide), samples := few })] }

theorem differ_annotatedRules : annotatedRules.DifferInAnnotations plainRules := by
  constructor
  · intro name
    simp [annotatedRules, plainRules, or_comm]
  · intro name source other hsource hother
    have hone := @DifferBehindMarker.intro "n = 1..3" "@integer 1" "" (by decide) (by decide)
      (by decide)
    have hfew := @DifferBehindMarker.intro "n = 5..9 " "@decimal 5.0, …" "@integer 5~9" (by decide)
      (by decide) (by decide)
    simp only [annotatedRules, plainRules, List.mem_cons, Prod.mk.injEq, RuleText.text.injEq,
      List.not_mem_nil, or_false] at hsource hother
    rcases hsource with ⟨rfl, rfl⟩ | ⟨rfl, rfl⟩
    · rcases hother with ⟨hname, -⟩ | ⟨-, rfl⟩
      · exact absurd hname (by decide)
      · exact hone
    · rcases hother with ⟨-, rfl⟩ | ⟨hname, -⟩
      · exact hfew
      · exact absurd hname (by decide)

/-- An unfinished condition is refused alike with a list of samples behind it and without, and two
maps with other samples, and in another order, select alike. -/
theorem annotations_decide_nothing_oneFew :
    (Condition.parse ("n = 1 and " ++ "@integer 1")).mapError RuleError.report =
        (Condition.parse ("n = 1 and " ++ "")).mapError RuleError.report ∧
      (∃ f, Rule.parse ("n = 1 and " ++ "@integer 1") = .error f ∧ f.kind = .unexpectedEnd ∧
        f.position = 10) ∧
      ∀ x, (oneFewSelector { integer := some ⟨[.single "1"], false⟩ }
          { decimal := some ⟨[.single "5.0"], true⟩ }).select? x =
        (oneFewSelector {} { integer := some ⟨[⟨"5", "9"⟩], false⟩ }).select? x := by
  obtain ⟨htexts, hmaps⟩ := annotations_decide_nothing
  obtain ⟨hreport, -, hrefused, -⟩ := htexts "n = 1 and " "@integer 1" "" (by decide) (by decide)
    (by decide) (by decide) (by decide)
  have hcondition : Condition.parse ("n = 1 and " ++ "@integer 1") =
      .error ⟨⟨.ended .operand, 10⟩, "n = 1 and @integer 1"⟩ := by
    decide +kernel
  refine ⟨hreport, hrefused _ hcondition, ?_⟩
  exact hmaps annotatedRules plainRules (by decide) (by decide) differ_annotatedRules "xx"
    "cardinal" "xx" "cardinal" _ _ [] [] (by decide +kernel) (by decide +kernel)

end Selector

end PluralForms
