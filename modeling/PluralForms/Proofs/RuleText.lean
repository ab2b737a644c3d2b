import PluralForms.Proofs.ConditionText
import PluralForms.Proofs.SampleGrammar
import PluralForms.Rule

/-!
# Written rules are read back

The condition of a rule is read up to the first marker and the samples from there on.  A written
rule has its marker just where its condition and the blank behind it end.
-/

namespace PluralForms

open Text

/-! ## Samples -/

def SampleRange.Writable (range : SampleRange) : Prop :=
  Sample.ValueText range.lower.toList ∧ Sample.ValueText range.upper.toList

/-- There is a range, and all bounds are sample values. -/
def SampleList.Writable (samples : SampleList) : Prop :=
  samples.ranges ≠ [] ∧ ∀ range ∈ samples.ranges, range.Writable

def Samples.Writable (samples : Samples) : Prop :=
  (∀ list ∈ samples.integer, list.Writable) ∧ ∀ list ∈ samples.decimal, list.Writable

instance (range : SampleRange) : Decidable range.Writable :=
  inferInstanceAs (Decidable (_ ∧ _))

instance (samples : SampleList) : Decidable samples.Writable :=
  inferInstanceAs (Decidable (_ ∧ _))

instance (samples : Samples) : Decidable samples.Writable :=
  inferInstanceAs (Decidable (_ ∧ _))

namespace Sample

theorem RangeText.writable {text : List Char} {range : SampleRange} (h : RangeText text range) :
    range.Writable := by
  cases h with
  | single hvalue hblanks =>
      rw [SampleRange.Writable, SampleRange.single, String.toList_ofList]
      exact ⟨hvalue, hvalue⟩
  | pair hlower hupper hbefore hafter hblanks =>
      rw [SampleRange.Writable, String.toList_ofList, String.toList_ofList]
      exact ⟨hlower, hupper⟩

theorem MoreText.writable {text : List Char} {more : SampleList} (h : MoreText text more) :
    ∀ range ∈ more.ranges, range.Writable := by
  induction h with
  | none => exact nofun
  | ellipsis hbefore hdots hafter => exact nofun
  | range hbefore hrange hmore ih => exact List.forall_mem_cons.mpr ⟨hrange.writable, ih⟩

theorem ListText.writable {text : List Char} {samples : SampleList} (h : ListText text samples) :
    samples.Writable := by
  cases h with
  | intro hbefore hrange hmore =>
      exact ⟨by simp, List.forall_mem_cons.mpr ⟨hrange.writable, hmore.writable⟩⟩

theorem AnnotationText.writable {name text : List Char} {samples : Option SampleList}
    (h : AnnotationText name text samples) : ∀ list ∈ samples, list.Writable := by
  cases h with
  | absent => exact nofun
  | present hlist =>
      rintro list ⟨⟩
      exact hlist.writable

theorem SamplesText.writable {text : List Char} {samples : Samples}
    (h : SamplesText text samples) : samples.Writable := by
  cases h with
  | intro hbefore hinteger hdecimal => exact ⟨hinteger.writable, hdecimal.writable⟩

/-! ## Writing samples -/

theorem rangeText_render {range : SampleRange} (h : range.Writable) :
    RangeText range.render.toList range := by
  obtain ⟨lower, upper⟩ := range
  rcases h with ⟨hlower, hupper⟩
  by_cases hsingle : lower = upper
  · subst hsingle
    have htext := RangeText.single hlower blanks_nil
    rw [String.ofList_toList, List.append_nil, SampleRange.single] at htext
    simpa [SampleRange.render, SampleRange.isSingle] using htext
  · have htext := RangeText.pair hlower hupper blanks_nil blanks_nil blanks_nil
    rw [String.ofList_toList, String.ofList_toList] at htext
    simpa [SampleRange.render, SampleRange.isSingle, hsingle] using htext

theorem RangeText.append_blanks {text blanks : List Char} {range : SampleRange}
    (h : RangeText text range) (hblanks : Blanks blanks) : RangeText (text ++ blanks) range := by
  cases h with
  | single hvalue hbehind =>
      rw [List.append_assoc]
      exact .single hvalue (hbehind.append hblanks)
  | pair hlower hupper hbefore hafter hbehind =>
      simp only [List.append_assoc, List.cons_append]
      exact .pair hlower hupper hbefore hafter (hbehind.append hblanks)

/-- Blanks behind a list belong to its last item, which may be its first. -/
theorem MoreText.append_blanks {text blanks : List Char} {more : SampleList}
    (h : MoreText text more) (hblanks : Blanks blanks) {first : List Char} {range : SampleRange}
    (hfirst : RangeText first range) :
    ∃ first' text', first ++ (text ++ blanks) = first' ++ text' ∧ RangeText first' range ∧
      MoreText text' more := by
  induction h generalizing first range with
  -- Without further items the blanks stand behind the first range itself.
  | none => exact ⟨first ++ blanks, [], by simp, hfirst.append_blanks hblanks, .none⟩
  | @ellipsis before dots after hbefore hdots hafter =>
      exact ⟨first, _, by simp, hfirst, .ellipsis hbefore hdots (hafter.append hblanks)⟩
  | @range before next nextRange others more hbefore hrange hmore ih =>
      obtain ⟨next', others', htext, hrange', hmore'⟩ := ih hrange
      refine ⟨first, _, ?_, hfirst, .range hbefore hrange' hmore'⟩
      rw [← htext]
      simp

theorem ListText.append_blanks {text blanks : List Char} {samples : SampleList}
    (h : ListText text samples) (hblanks : Blanks blanks) : ListText (text ++ blanks) samples := by
  cases h with
  | intro hbefore hrange hmore =>
      obtain ⟨first, others, htext, hfirst, hothers⟩ := hmore.append_blanks hblanks hrange
      rw [List.append_assoc, List.append_assoc, htext]
      exact .intro hbefore hfirst hothers

theorem moreText_items {ranges : List SampleRange} (openEnded : Bool)
    (h : ∀ range ∈ ranges, range.Writable) (first : String) :
    ∃ more, (", ".intercalate
        (first :: (ranges.map SampleRange.render ++ if openEnded then ["…"] else []))).toList =
      first.toList ++ more ∧ MoreText more ⟨ranges, openEnded⟩ := by
  induction ranges generalizing first with
  | nil =>
      cases openEnded with
      | false => exact ⟨[], by simp, .none⟩
      | true => exact ⟨_, by simp, .ellipsis blanks_space .one blanks_nil⟩
  | cons range others ih =>
      obtain ⟨hrange, hothers⟩ := List.forall_mem_cons.mp h
      obtain ⟨more, htext, hmore⟩ := ih hothers range.render
      refine ⟨_, ?_, .range blanks_space (rangeText_render hrange) hmore⟩
      rw [← htext, List.map_cons, List.cons_append, String.intercalate_cons_cons,
        String.toList_append, String.toList_append, List.append_assoc]
      rfl

theorem listText_render {samples : SampleList} (h : samples.Writable) (keyword : String) :
    ∃ text, (samples.render keyword).toList = '@' :: (keyword.toList ++ text) ∧
      ListText text samples := by
  obtain ⟨ranges, openEnded⟩ := samples
  rcases h with ⟨hne, hall⟩
  obtain ⟨first, others, rfl⟩ := List.exists_cons_of_ne_nil hne
  obtain ⟨hfirst, hothers⟩ := List.forall_mem_cons.mp hall
  obtain ⟨more, htext, hmore⟩ := moreText_items openEnded hothers first.render
  refine ⟨_, ?_, .intro blanks_space (rangeText_render hfirst) hmore⟩
  rw [← htext]
  simp [SampleList.render]

theorem annotationText_render {samples : SampleList} (h : samples.Writable) (keyword : String) :
    AnnotationText keyword.toList (samples.render keyword).toList (some samples) := by
  obtain ⟨text, htext, hlist⟩ := listText_render h keyword
  rw [htext]
  exact .present hlist

theorem AnnotationText.append_blanks {name text blanks : List Char} {list : SampleList}
    (h : AnnotationText name text (some list)) (hblanks : Blanks blanks) :
    AnnotationText name (text ++ blanks) (some list) := by
  cases h with
  | present hlist =>
      rw [List.cons_append, List.append_assoc]
      exact .present (hlist.append_blanks hblanks)

end Sample

theorem Samples.Writable.text {samples : Samples} (h : samples.Writable) :
    Sample.SamplesText (" ".intercalate samples.parts).toList samples := by
  obtain ⟨integer, decimal⟩ := samples
  rcases h with ⟨hinteger, hdecimal⟩
  cases integer with
  | none =>
      cases decimal with
      | none => exact .intro Sample.blanks_nil .absent .absent
      | some second =>
          exact .intro Sample.blanks_nil .absent
            (Sample.annotationText_render (hdecimal second rfl) "decimal")
  | some first =>
      have hfirst := Sample.annotationText_render (hinteger first rfl) "integer"
      cases decimal with
      | none =>
          have htext := Sample.SamplesText.intro Sample.blanks_nil hfirst .absent
          simpa [Samples.parts] using htext
      | some second =>
          have hsecond := Sample.annotationText_render (hdecimal second rfl) "decimal"
          have htext := Sample.SamplesText.intro Sample.blanks_nil
            (hfirst.append_blanks Sample.blanks_space) hsecond
          simpa [Samples.parts] using htext

theorem Samples.ahead_parts (samples : Samples) :
    Ahead (· = sampleMarker) (" ".intercalate samples.parts).toList := by
  obtain ⟨integer, decimal⟩ := samples
  cases integer <;> cases decimal <;>
    simp [Samples.parts, SampleList.render, sampleMarker, String.intercalate_cons_cons]

namespace Rule

/-- What can be written so that it is read back, if only the text is not too long. -/
def Writable (rule : Rule) : Prop :=
  rule.condition.NoEmptyGroup ∧ rule.condition.Fits ∧ rule.samples.Writable

instance (rule : Rule) : Decidable rule.Writable :=
  inferInstanceAs (Decidable (_ ∧ _))

/-- The text of a rule is that of its condition, perhaps a blank, and that of its samples. -/
theorem text_toList (rule : Rule) :
    ∃ blanks, Sample.Blanks blanks ∧ rule.text.toList =
      (rule.condition.text.toList ++ blanks) ++ (" ".intercalate rule.samples.parts).toList := by
  by_cases halways : rule.condition.isAlways = true
  · refine ⟨[], Sample.blanks_nil, ?_⟩
    have hcondition := Condition.isAlways_iff.mp halways
    rw [text, if_pos halways, hcondition, Condition.text_always]
    rfl
  · have htext : rule.text = " ".intercalate (rule.condition.text :: rule.samples.parts) := by
      rw [text, if_neg halways]
      rfl
    rw [htext]
    cases hparts : rule.samples.parts with
    | nil => exact ⟨[], Sample.blanks_nil, by simp⟩
    | cons first others =>
        refine ⟨[' '], Sample.blanks_space, ?_⟩
        rw [String.intercalate_cons_cons, String.toList_append, String.toList_append]
        rfl

theorem readText_eq_ok_iff {text : List Char} {rule : Rule} :
    readText text = .ok rule ↔
      ∃ stop, Condition.readText text = .ok (rule.condition, stop) ∧
        Sample.SamplesText (text.drop stop) rule.samples := by
  constructor
  · intro h
    obtain ⟨⟨condition, stop⟩, hcondition, h⟩ := ok_of_bind_eq_ok h
    obtain ⟨samples, hsamples, h⟩ := ok_of_bind_eq_ok h
    cases h
    exact ⟨stop, hcondition, Sample.readAll_eq_ok_iff.mp hsamples⟩
  · rintro ⟨stop, hcondition, hsamples⟩
    have hread : Sample.readAll (.ofText text stop) = .ok rule.samples :=
      Sample.readAll_eq_ok_iff.mpr hsamples
    simp only [readText, bind, Except.bind, hcondition, hread]
    rfl

/-- What is read is writable, and its text was not too long. -/
theorem parse_ok_writable {source : String} {rule : Rule} (h : parse source = .ok rule) :
    source.length ≤ maxRuleLength ∧ rule.Writable := by
  obtain ⟨stop, hcondition, hsamples⟩ := readText_eq_ok_iff.mp (refusedIn_eq_ok_iff.mp h)
  obtain ⟨hlength, tokens, hscan, hderived⟩ := Condition.readText_eq_ok_iff.mp hcondition
  rw [String.length_toList] at hlength
  rcases hderived.noEmptyGroup_and_fits with ⟨hgroups, hfits⟩
  exact ⟨hlength, hgroups, hfits, hsamples.writable⟩

theorem parse_text {rule : Rule} (h : rule.Writable)
    (hlength : rule.text.length ≤ maxRuleLength) : parse rule.text = .ok rule := by
  rcases h with ⟨hgroups, hfits, hsamples⟩
  obtain ⟨blanks, hblanks, htext⟩ := rule.text_toList
  rw [← String.length_toList, htext] at hlength
  have hwrites := Condition.writes_condition hgroups hfits
  have hcondition := Condition.readText_of_writes hwrites hblanks rule.samples.ahead_parts hlength
  refine refusedIn_eq_ok_iff.mpr (readText_eq_ok_iff.mpr ⟨_, by rw [htext, hcondition], ?_⟩)
  rw [htext, List.drop_left]
  exact hsamples.text

theorem render_of_fits {rule : Rule} (h : rule.condition.Fits) : rule.render = .ok rule.text :=
  rule.writing.eq_ok (h.mono fun _ => isShort_of_le_maxInteger)

/-- Writing and reading give a rule back just when its condition has no empty group, its numbers
are small enough, its samples are sample values and its text, which it then has, is short enough. -/
theorem parse_render_eq_ok_iff_writable (rule : Rule) :
    (rule.Writable → ∃ text, rule.render = .ok text) ∧
    ((∃ text, rule.render = .ok text ∧ parse text = .ok rule) ↔
      rule.Writable ∧ ∃ text, rule.render = .ok text ∧ text.length ≤ maxRuleLength) := by
  refine ⟨fun hwritable => ⟨_, render_of_fits hwritable.2.1⟩, ?_⟩
  constructor
  · rintro ⟨text, hrender, hread⟩
    obtain ⟨hlength, hwritable⟩ := parse_ok_writable hread
    exact ⟨hwritable, text, hrender, hlength⟩
  · rintro ⟨hwritable, text, hrender, hlength⟩
    obtain ⟨-, rfl⟩ := rule.writing.eq_ok_iff.mp hrender
    exact ⟨_, hrender, parse_text hwritable hlength⟩

example :
    let list : SampleList := ⟨[.single "1", ⟨"1.0", "1.5c3"⟩], true⟩
    Writable ⟨.always, { integer := some list, decimal := some list }⟩ ∧
      ¬Writable ⟨.always, { integer := some ⟨[], true⟩ }⟩ := by
  decide

end Rule

/-! ## Reading, writing and reading again -/

/-- A text is read as `a`, or it is refused because it is too long. -/
def ReadAsUnlessTooLong (parse : String → Except RuleError α) (text : String) (a : α) : Prop :=
  (text.length ≤ maxRuleLength ∧ parse text = .ok a) ∨
    (maxRuleLength < text.length ∧
      ∃ next, parse text = .error ⟨⟨.tooLong next, maxRuleLength⟩, text⟩)

theorem readAsUnlessTooLong_of_le {parse : String → Except RuleError α} {text : String} {a : α}
    (hshort : text.length ≤ maxRuleLength → parse text = .ok a)
    (hlong : maxRuleLength < text.length →
      ∃ next, parse text = .error ⟨⟨.tooLong next, maxRuleLength⟩, text⟩) :
    ReadAsUnlessTooLong parse text a := by
  by_cases hlength : text.length ≤ maxRuleLength
  · exact .inl ⟨hlength, hshort hlength⟩
  · have hover : maxRuleLength < text.length := by omega
    exact .inr ⟨hover, hlong hover⟩

theorem Condition.parse_tooLong {source : String} (h : maxRuleLength < source.length) :
    ∃ next, Condition.parse source = .error ⟨⟨.tooLong next, maxRuleLength⟩, source⟩ := by
  rw [← String.length_toList] at h
  rcases Condition.readText_tooLong h with ⟨next, hread⟩
  refine ⟨next, ?_⟩
  rw [Condition.parse, hread]
  rfl

theorem Rule.parse_tooLong {source : String} (h : maxRuleLength < source.length) :
    ∃ next, Rule.parse source = .error ⟨⟨.tooLong next, maxRuleLength⟩, source⟩ := by
  rw [← String.length_toList] at h
  rcases Condition.readText_tooLong h with ⟨next, hread⟩
  refine ⟨next, ?_⟩
  simp only [Rule.parse, Rule.readText, bind, Except.bind, hread]
  rfl

/-- What was read from any source is written so that it is read back, but for texts that are too
long. -/
theorem render_of_parse_ok (source : String) :
    (∀ condition, Condition.parse source = .ok condition →
      ∃ text, condition.render = .ok text ∧
        ReadAsUnlessTooLong Condition.parse text condition) ∧
    (∀ rule, Rule.parse source = .ok rule →
      ∃ text, rule.render = .ok text ∧ ReadAsUnlessTooLong Rule.parse text rule) := by
  constructor
  · intro condition h
    rcases Condition.parse_ok_bounds h with ⟨-, hgroups, hfits⟩
    exact ⟨_, Condition.render_of_fits hfits,
      readAsUnlessTooLong_of_le (Condition.parse_text hgroups hfits) Condition.parse_tooLong⟩
  · intro rule h
    rcases Rule.parse_ok_writable h with ⟨-, hwritable⟩
    exact ⟨_, Rule.render_of_fits hwritable.2.1,
      readAsUnlessTooLong_of_le (Rule.parse_text hwritable) Rule.parse_tooLong⟩

/-! ### Sources without blanks -/

namespace Condition

def denseText (operand : Operand) (ranges : RangeList) : String :=
  operand.name ++ "=" ++ ",".intercalate (ranges.toList.map Interval.text)

theorem length_text_ofRanges (operand : Operand) (ranges : RangeList) :
    (ofRanges operand ranges).text.length = (denseText operand ranges).length + 2 := by
  have htext : (ofRanges operand ranges).text = operand.name ++ " " ++ "=" ++ " " ++
      ",".intercalate (ranges.toList.map Interval.text) := by
    simp [ofRanges, text, groupText, Relation.text, Relation.expressionText,
      Comparison.keyword, Comparison.operator, Comparison.rangesText, Comparison.ranges]
  have hblank : " ".length = 1 := rfl
  rw [htext, denseText]
  simp only [String.length_append, hblank]
  omega

theorem writes_denseText {operand : Operand} {ranges : RangeList}
    (hfits : ∀ interval ∈ ranges.toList, IntervalFits interval) :
    Writes (denseText operand ranges).toList (fun c => isDigit c = false)
      (Derives · (ofRanges operand ranges)) := by
  have hsign : Writes "=".toList (fun _ => True) (One fun token => token.isKind .equals = true) :=
    writes_sign .equals fun _ => rfl
  have htest : Writes ("=".toList ++ (",".intercalate (ranges.toList.map Interval.text)).toList)
      (fun c => isDigit c = false) (DerivesTest (.membership ranges) false) := by
    apply hsign.append (writes_ranges ranges.toList_ne_nil hfits) (fun rest _ _ _ => trivial)
    rintro _ others ⟨token, rfl, hkind⟩ hderived
    exact ⟨[], false, token :: others, false, rfl, .absent,
      .membership (by simp [isMembershipMark, hkind]) hderived, rfl⟩
  rw [denseText, String.toList_append, String.toList_append, List.append_assoc]
  apply (writes_operand operand).append htest (fun rest _ => ahead_cons.mpr (by decide))
  rintro _ _ ⟨token, rfl, hname⟩ ⟨nots, outer, test, inner, rfl, hnot, hcomparison, hsign⟩
  have hrelation := DerivesRelation.intro (.plain hname) hnot hcomparison
  rw [← hsign] at hrelation
  exact .groups (.last (.last hrelation))

theorem parse_denseText {operand : Operand} {ranges : RangeList}
    (hfits : ∀ interval ∈ ranges.toList, IntervalFits interval)
    (hlength : (denseText operand ranges).length ≤ maxRuleLength) :
    parse (denseText operand ranges) = .ok (ofRanges operand ranges) :=
  parse_of_writes (writes_denseText hfits) hlength

def ones (count : Nat) : RangeList :=
  ⟨.single 1, List.replicate count (.single 1)⟩

theorem ones_fit (count : Nat) : ∀ interval ∈ (ones count).toList, IntervalFits interval := by
  intro interval hmem
  have heq : interval = .single 1 := by
    rcases List.mem_cons.mp hmem with rfl | hmem
    · rfl
    · exact List.eq_of_mem_replicate hmem
  rw [heq]
  exact ⟨by decide, by decide⟩

theorem length_denseText_ones (operand : Operand) (count : Nat) :
    (denseText operand (ones count)).length = 2 * count + 3 := by
  have hranges : ∀ count, (",".intercalate
      ((ones count).toList.map Interval.text)).length = 2 * count + 1 := by
    intro count
    induction count with
    | zero => rfl
    | succ count ih =>
        have hsplit : (ones (count + 1)).toList = .single 1 :: (ones count).toList := rfl
        have hone : (Interval.single 1).text.length = 1 := rfl
        have hcomma : ",".length = 1 := rfl
        rw [hsplit, List.map_cons]
        rw [RangeList.toList, List.map_cons] at ih ⊢
        rw [String.intercalate_cons_cons, String.length_append, String.length_append, hone, hcomma,
          ih]
        omega
  have hname : operand.name.length = 1 := by
    cases operand <;> rfl
  have hsign : "=".length = 1 := rfl
  rw [denseText, String.length_append, String.length_append, hranges, hname, hsign]
  omega

end Condition

/-- A source of 4095 characters is read, but not what is written for its condition: that has two
blanks more. -/
theorem parse_render_ones_ne :
    Condition.parse (Condition.denseText .n (Condition.ones 2046)) =
        .ok (Condition.ofRanges .n (Condition.ones 2046)) ∧
      ∃ text, (Condition.ofRanges .n (Condition.ones 2046)).render = .ok text ∧
        Condition.parse text ≠ .ok (Condition.ofRanges .n (Condition.ones 2046)) := by
  have hlength := Condition.length_denseText_ones .n 2046
  have hread : Condition.parse (Condition.denseText .n (Condition.ones 2046)) =
      .ok (Condition.ofRanges .n (Condition.ones 2046)) := by
    apply Condition.parse_denseText (Condition.ones_fit 2046)
    rw [hlength]
    decide
  obtain ⟨-, -, hfits⟩ := Condition.parse_ok_bounds hread
  refine ⟨hread, _, Condition.render_of_fits hfits, ?_⟩
  intro hagain
  obtain ⟨hle, -⟩ := Condition.parse_ok_bounds hagain
  rw [Condition.length_text_ofRanges, hlength] at hle
  exact absurd hle (by decide)

/-- A short source has a short written form, and that is read back. -/
theorem render_of_parse_ok_one :
    Condition.parse (Condition.denseText .n (Condition.ones 0)) =
        .ok (Condition.ofRanges .n (Condition.ones 0)) ∧
      ∃ text, (Condition.ofRanges .n (Condition.ones 0)).render = .ok text ∧
        ReadAsUnlessTooLong Condition.parse text (Condition.ofRanges .n (Condition.ones 0)) := by
  have hlength := Condition.length_denseText_ones .n 0
  have hread : Condition.parse (Condition.denseText .n (Condition.ones 0)) =
      .ok (Condition.ofRanges .n (Condition.ones 0)) := by
    apply Condition.parse_denseText (Condition.ones_fit 0)
    rw [hlength]
    decide
  exact ⟨hread, (render_of_parse_ok _).1 _ hread⟩

end PluralForms
