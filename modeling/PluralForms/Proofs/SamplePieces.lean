import Mathlib.Data.List.Basic
import PluralForms.Proofs.RuleText

/-!
# The pieces of annotations

Keywords, values and signs are the pieces of the annotations behind a condition, and blanks may
stand around every piece but not in one.  The grammar of the pieces knows of no blanks; a text is
read as samples just when it can be cut into pieces that derive them.  Since a list begins with a
digit, no letter follows a keyword.
-/

namespace PluralForms

open Text

namespace Sample

abbrev Pieces := List (List Char)

/-! ## Productions -/

/-- The text of the pieces, each one with blanks behind it. -/
inductive Trailed : Pieces → List Char → Prop where
  | nil : Trailed [] []
  | cons {piece blanks pieces rest} (hblanks : Blanks blanks) (hrest : Trailed pieces rest) :
      Trailed (piece :: pieces) (piece ++ (blanks ++ rest))

/-- The text of the pieces with blanks before, between and behind them. -/
inductive Spaced : Pieces → List Char → Prop where
  | intro {blanks pieces rest} (hblanks : Blanks blanks) (hrest : Trailed pieces rest) :
      Spaced pieces (blanks ++ rest)

inductive DerivesRange : Pieces → SampleRange → Prop where
  | single {value} (hvalue : ValueText value) : DerivesRange [value] (.single (String.ofList value))
  | pair {lower upper} (hlower : ValueText lower) (hupper : ValueText upper) :
      DerivesRange [lower, ['~'], upper] ⟨String.ofList lower, String.ofList upper⟩

/-- One or more ranges with commas between them. -/
inductive DerivesRanges : Pieces → List SampleRange → Prop where
  | last {pieces range} (hrange : DerivesRange pieces range) : DerivesRanges pieces [range]
  | more {first range others ranges} (hrange : DerivesRange first range)
      (hothers : DerivesRanges others ranges) :
      DerivesRanges (first ++ [','] :: others) (range :: ranges)

/-- At will a comma and the ellipsis; whether they are there. -/
inductive DerivesClosing : Pieces → Bool → Prop where
  | absent : DerivesClosing [] false
  | present {dots} (hdots : EllipsisText dots) : DerivesClosing [[','], dots] true

inductive DerivesList : Pieces → SampleList → Prop where
  | intro {pieces ranges closing openEnded} (hranges : DerivesRanges pieces ranges)
      (hclosing : DerivesClosing closing openEnded) :
      DerivesList (pieces ++ closing) ⟨ranges, openEnded⟩

/-- Nothing, or a list behind the marker and the keyword, which are one piece. -/
inductive DerivesAnnotation (name : List Char) : Pieces → Option SampleList → Prop where
  | absent : DerivesAnnotation name [] .none
  | present {pieces samples} (hlist : DerivesList pieces samples) :
      DerivesAnnotation name (('@' :: name) :: pieces) (some samples)

inductive DerivesSamples : Pieces → Samples → Prop where
  | intro {first second integer decimal}
      (hinteger : DerivesAnnotation "integer".toList first integer)
      (hdecimal : DerivesAnnotation "decimal".toList second decimal) :
      DerivesSamples (first ++ second) { integer, decimal }

/-! ## Pieces with blanks behind them -/

theorem Trailed.append {p q : Pieces} {s t : List Char} (hp : Trailed p s) (hq : Trailed q t) :
    Trailed (p ++ q) (s ++ t) := by
  induction hp with
  | nil => exact hq
  | cons hblanks _ ih =>
      rw [List.append_assoc, List.append_assoc]
      exact .cons hblanks ih

theorem Trailed.exists_append {p q : Pieces} {text : List Char} (h : Trailed (p ++ q) text) :
    ∃ s t, text = s ++ t ∧ Trailed p s ∧ Trailed q t := by
  induction p generalizing text with
  | nil => exact ⟨[], text, rfl, .nil, h⟩
  | cons piece pieces ih =>
      cases h with
      | @cons _ blanks _ rest hblanks hrest =>
          obtain ⟨s, t, rfl, hs, ht⟩ := ih hrest
          refine ⟨piece ++ (blanks ++ s), t, ?_, .cons hblanks hs, ht⟩
          simp only [List.append_assoc]

theorem trailed_singleton {piece blanks : List Char} (h : Blanks blanks) :
    Trailed [piece] (piece ++ blanks) := by
  rw [← List.append_nil blanks]
  exact .cons h .nil

/-- A last piece and the blanks behind it. -/
theorem Trailed.exists_singleton {piece text : List Char} (h : Trailed [piece] text) :
    ∃ blanks, Blanks blanks ∧ text = piece ++ blanks := by
  cases h with
  | @cons _ blanks _ _ hblanks hrest =>
      cases hrest
      exact ⟨blanks, hblanks, by rw [List.append_nil]⟩

/-! ## Ranges -/

theorem rangeText_iff {text : List Char} {range : SampleRange} :
    RangeText text range ↔ ∃ pieces, DerivesRange pieces range ∧ Trailed pieces text := by
  constructor
  · intro h
    cases h with
    | single hvalue hblanks => exact ⟨_, .single hvalue, trailed_singleton hblanks⟩
    | @pair lower upper before after blanks hlower hupper hbefore hafter hblanks =>
        have hupperText : Trailed [['~'], upper] (['~'] ++ (after ++ (upper ++ blanks))) :=
          .cons hafter (trailed_singleton hblanks)
        exact ⟨[lower, ['~'], upper], .pair hlower hupper, .cons hbefore hupperText⟩
  · rintro ⟨pieces, hrange, htext⟩
    cases hrange with
    | single hvalue =>
        obtain ⟨blanks, hblanks, rfl⟩ := htext.exists_singleton
        exact .single hvalue hblanks
    | pair hlower hupper =>
        cases htext with
        | cons hbefore htext =>
            cases htext with
            | cons hafter htext =>
                obtain ⟨blanks, hblanks, rfl⟩ := htext.exists_singleton
                exact .pair hlower hupper hbefore hafter hblanks

/-! ## Lists -/

/-- A first range and what follows it are cut into the pieces of a list. -/
theorem MoreText.exists_pieces {rest : List Char} {more : SampleList} (h : MoreText rest more)
    {first : List Char} {range : SampleRange} (hfirst : RangeText first range) :
    ∃ pieces, DerivesList pieces ⟨range :: more.ranges, more.openEnded⟩ ∧
      Trailed pieces (first ++ rest) := by
  induction h generalizing first range with
  | none =>
      obtain ⟨pieces, hrange, htext⟩ := rangeText_iff.mp hfirst
      rw [List.append_nil]
      exact ⟨pieces ++ [], .intro (.last hrange) .absent, (List.append_nil pieces).symm ▸ htext⟩
  | @ellipsis before dots after hbefore hdots hafter =>
      obtain ⟨pieces, hrange, htext⟩ := rangeText_iff.mp hfirst
      have hclosing : Trailed [[','], dots] ([','] ++ (before ++ (dots ++ after))) :=
        .cons hbefore (trailed_singleton hafter)
      exact ⟨pieces ++ [[','], dots], .intro (.last hrange) (.present hdots),
        htext.append hclosing⟩
  | @range before text second rest more hbefore hsecond hmore ih =>
      obtain ⟨pieces, hrange, htext⟩ := rangeText_iff.mp hfirst
      obtain ⟨others, hlist, hothers⟩ := ih hsecond
      have hcomma : Trailed ([','] :: others) ([','] ++ (before ++ (text ++ rest))) :=
        .cons hbefore hothers
      cases hlist with
      | @intro list _ closing _ hranges hclosing =>
          refine ⟨(pieces ++ [','] :: list) ++ closing, .intro (.more hrange hranges) hclosing, ?_⟩
          rw [List.append_assoc, List.cons_append]
          exact htext.append hcomma

theorem DerivesClosing.moreText {closing : Pieces} {openEnded : Bool} {text : List Char}
    (h : DerivesClosing closing openEnded) (htext : Trailed closing text) :
    MoreText text ⟨[], openEnded⟩ := by
  cases h with
  | absent =>
      cases htext
      exact .none
  | @present dots hdots =>
      cases htext with
      | @cons _ before _ _ hbefore htext =>
          obtain ⟨after, hafter, rfl⟩ := htext.exists_singleton
          show MoreText (',' :: (before ++ (dots ++ after))) _
          exact .ellipsis hbefore hdots hafter

/-- The pieces of ranges, and the text of what follows them, spell a first range and more. -/
theorem DerivesRanges.exists_text {pieces : Pieces} {ranges : List SampleRange}
    (h : DerivesRanges pieces ranges) {openEnded : Bool} {text last : List Char}
    (htext : Trailed pieces text) (hlast : MoreText last ⟨[], openEnded⟩) :
    ∃ first range rest more, text ++ last = first ++ rest ∧ RangeText first range ∧
      MoreText rest ⟨more, openEnded⟩ ∧ ranges = range :: more := by
  induction h generalizing text with
  | @last pieces range hrange =>
      exact ⟨text, range, last, [], rfl, rangeText_iff.mpr ⟨_, hrange, htext⟩, hlast, rfl⟩
  | @more pieces range others ranges hrange _ ih =>
      obtain ⟨first, tail, rfl, hfirst, htail⟩ := htext.exists_append
      cases htail with
      | @cons _ blanks _ rest hblanks hrest =>
          obtain ⟨second, next, following, more, htext, hsecond, hmore, rfl⟩ := ih hrest
          refine ⟨first, range, ',' :: (blanks ++ (second ++ following)), next :: more, ?_,
            rangeText_iff.mpr ⟨_, hrange, hfirst⟩, .range hblanks hsecond hmore, rfl⟩
          simp only [← htext, List.append_assoc, List.cons_append, List.nil_append]

theorem listText_iff {text : List Char} {samples : SampleList} :
    ListText text samples ↔ ∃ pieces, DerivesList pieces samples ∧ Spaced pieces text := by
  constructor
  · intro h
    cases h with
    | intro hbefore hrange hmore =>
        obtain ⟨pieces, hlist, htext⟩ := hmore.exists_pieces hrange
        exact ⟨pieces, hlist, .intro hbefore htext⟩
  · rintro ⟨pieces, hlist, htext⟩
    cases hlist with
    | intro hranges hclosing =>
        cases htext with
        | intro hblanks htext =>
            obtain ⟨list, last, rfl, hlist, hlast⟩ := htext.exists_append
            obtain ⟨first, range, rest, more, htext, hfirst, hmore, rfl⟩ :=
              hranges.exists_text hlist (hclosing.moreText hlast)
            rw [htext]
            exact .intro hblanks hfirst hmore

/-! ## Annotations -/

theorem annotationText_iff {name text : List Char} {samples : Option SampleList} :
    AnnotationText name text samples ↔
      ∃ pieces, DerivesAnnotation name pieces samples ∧ Trailed pieces text := by
  constructor
  · intro h
    cases h with
    | absent => exact ⟨[], .absent, .nil⟩
    | present hlist =>
        obtain ⟨pieces, hpieces, hspaced⟩ := listText_iff.mp hlist
        cases hspaced with
        | intro hblanks htext =>
            exact ⟨('@' :: name) :: pieces, .present hpieces, .cons hblanks htext⟩
  · rintro ⟨pieces, hannotation, htext⟩
    cases hannotation with
    | absent =>
        cases htext
        exact .absent
    | present hlist =>
        cases htext with
        | cons hblanks htext =>
            exact .present (listText_iff.mpr ⟨_, hlist, .intro hblanks htext⟩)

theorem samplesText_iff {text : List Char} {samples : Samples} :
    SamplesText text samples ↔ ∃ pieces, DerivesSamples pieces samples ∧ Spaced pieces text := by
  constructor
  · intro h
    cases h with
    | intro hbefore hinteger hdecimal =>
        obtain ⟨first, hfirst, hfirstText⟩ := annotationText_iff.mp hinteger
        obtain ⟨second, hsecond, hsecondText⟩ := annotationText_iff.mp hdecimal
        exact ⟨first ++ second, .intro hfirst hsecond,
          .intro hbefore (hfirstText.append hsecondText)⟩
  · rintro ⟨pieces, hsamples, htext⟩
    cases hsamples with
    | intro hinteger hdecimal =>
        cases htext with
        | intro hblanks htext =>
            obtain ⟨first, second, rfl, hfirst, hsecond⟩ := htext.exists_append
            exact .intro hblanks (annotationText_iff.mpr ⟨_, hinteger, hfirst⟩)
              (annotationText_iff.mpr ⟨_, hdecimal, hsecond⟩)

end Sample

namespace Rule

open Sample

/-- Where the condition is in order, the rule is read just if the rest behind the tokens is cut
into the pieces of annotations, and its samples are those that the pieces derive. -/
theorem parse_iff_derivesSamples {source : String} {condition : Condition}
    (hcondition : Condition.parse source = .ok condition) :
    ∃ tokens stop, tokenize source = .ok (tokens, stop) ∧
      ((∃ rule, parse source = .ok rule) ↔
        ∃ pieces samples, Sample.Spaced pieces (source.toList.drop stop) ∧
          DerivesSamples pieces samples) ∧
      ∀ rule, parse source = .ok rule ↔ rule.condition = condition ∧
        ∃ pieces, Sample.Spaced pieces (source.toList.drop stop) ∧
          DerivesSamples pieces rule.samples := by
  obtain ⟨stop, hread⟩ := Condition.parse_eq_ok_iff.mp hcondition
  obtain ⟨hlength, tokens, hscan, hderived⟩ := Condition.readText_eq_ok_iff.mp hread
  have hrule : ∀ rule, parse source = .ok rule ↔ rule.condition = condition ∧
      ∃ pieces, Sample.Spaced pieces (source.toList.drop stop) ∧
        DerivesSamples pieces rule.samples := by
    intro rule
    rw [parse, refusedIn_eq_ok_iff, readText_eq_ok_iff, hread]
    constructor
    · rintro ⟨last, hsame, hsamples⟩
      cases hsame
      obtain ⟨pieces, hpieces, hspaced⟩ := samplesText_iff.mp hsamples
      exact ⟨rfl, pieces, hspaced, hpieces⟩
    · rintro ⟨rfl, pieces, hspaced, hpieces⟩
      exact ⟨stop, rfl, samplesText_iff.mpr ⟨pieces, hpieces, hspaced⟩⟩
  refine ⟨tokens, stop, Condition.tokenize_eq_ok_iff.mpr hscan, ?_, hrule⟩
  constructor
  · rintro ⟨rule, hparse⟩
    obtain ⟨-, pieces, hspaced, hsamples⟩ := (hrule rule).mp hparse
    exact ⟨pieces, rule.samples, hspaced, hsamples⟩
  · rintro ⟨pieces, samples, hspaced, hsamples⟩
    exact ⟨⟨condition, samples⟩, (hrule ⟨condition, samples⟩).mpr ⟨rfl, pieces, hspaced, hsamples⟩⟩

/-- A value, a range and the ellipsis are found in pieces of the text behind the condition. -/
theorem derivesSamples_one :
    let source := "n = 1 @integer 1, 3~4, …"
    let one : Condition := ⟨[[⟨.n, none, .membership ⟨.single 1, []⟩, false⟩]]⟩
    Condition.parse source = .ok one ∧
      ∃ tokens stop, tokenize source = .ok (tokens, stop) ∧
        ∃ pieces, Sample.Spaced pieces (source.toList.drop stop) ∧
          DerivesSamples pieces { integer := some ⟨[.single "1", ⟨"3", "4"⟩], true⟩ } := by
  intro source one
  have hcondition : Condition.parse source = .ok one := by decide +kernel
  have hrule : parse source =
      .ok ⟨one, { integer := some ⟨[.single "1", ⟨"3", "4"⟩], true⟩ }⟩ := by
    decide +kernel
  obtain ⟨tokens, stop, htokens, -, hparse⟩ := parse_iff_derivesSamples hcondition
  exact ⟨hcondition, tokens, stop, htokens, ((hparse _).mp hrule).2⟩

end Rule

end PluralForms
