import PluralForms.Proofs.DecimalTexts
import PluralForms.Proofs.RuleText

/-!
# Sample values are decimal texts

Samples are read from rules piece by piece, and decimal texts as a whole.  Both know the same
numbers, but that a sample has no sign: what a rule lists has operands or exceeds their limits, and
what has operands or exceeds their limits can be listed.
-/

namespace PluralForms

open Text

/-! ## Two grammars of numbers -/

/-- The text does not begin with a sign. -/
def Unsigned (text : List Char) : Prop :=
  Ahead (fun c => c ≠ '+' ∧ c ≠ '-') text

theorem Sample.PartText.exists_part {isMark : Char → Bool} {text : List Char}
    (h : Sample.PartText isMark text) : ∃ part, DecimalText.PartText isMark text part := by
  cases h with
  | absent => exact ⟨none, .absent⟩
  | present hmark hdigits => exact ⟨_, .present hmark hdigits.1 hdigits.2⟩

theorem DecimalText.PartText.sample {isMark : Char → Bool} {text : List Char}
    {part : Option (List Char)} (h : DecimalText.PartText isMark text part) :
    Sample.PartText isMark text := by
  cases h with
  | absent => exact .absent
  | present hmark hne hrun => exact .present hmark ⟨hne, hrun⟩

theorem Sample.ValueText.exists_spells {text : List Char} (h : Sample.ValueText text) :
    ∃ parts, DecimalText.Spells text parts := by
  cases h with
  | intro hwhole hfraction hexponent =>
      obtain ⟨fraction, hpointed⟩ := hfraction.exists_part
      obtain ⟨exponent, hmarked⟩ := hexponent.exists_part
      exact ⟨_, .intro .absent hwhole.1 hwhole.2 hpointed hmarked⟩

theorem Sample.ValueText.unsigned {text : List Char} (h : Sample.ValueText text) :
    Unsigned text := by
  obtain ⟨c, tail, rfl, hdigit⟩ := h.exists_cons
  refine ahead_cons.mpr ⟨?_, ?_⟩
  · rintro rfl
    exact absurd hdigit (by decide)
  · rintro rfl
    exact absurd hdigit (by decide)

theorem DecimalText.Spells.valueText {text : List Char} {parts : DecimalText}
    (h : DecimalText.Spells text parts) (hunsigned : Unsigned text) : Sample.ValueText text := by
  cases h with
  | intro hsign hne hrun hfraction hexponent =>
      cases hsign with
      | absent =>
          rw [List.nil_append]
          exact .intro ⟨hne, hrun⟩ hfraction.sample hexponent.sample
      | plus => exact absurd rfl (ahead_cons.mp hunsigned).1
      | minus => exact absurd rfl (ahead_cons.mp hunsigned).2

/-- A text is a sample value just if it is a decimal text without a sign. -/
theorem valueText_iff_spells {text : List Char} :
    Sample.ValueText text ↔ Unsigned text ∧ ∃ parts, DecimalText.Spells text parts :=
  ⟨fun h => ⟨h.unsigned, h.exists_spells⟩, fun ⟨hunsigned, _, h⟩ => h.valueText hunsigned⟩

/-! ## Decimal texts and their operands -/

namespace Operands

/-- The text has operands, or its number is beyond their limits. -/
def ReadsOrOverflows (text : String) : Prop :=
  (∃ x, ofText text = .ok x) ∨ ∃ cause, ofText text = .error (.overflow text cause)

theorem readsOrOverflows_of_spells {text : String} {parts : DecimalText}
    (h : DecimalText.Spells text.toList parts) : ReadsOrOverflows text := by
  rw [ReadsOrOverflows, DecimalText.ofText_of_spells h]
  cases parts.operands with
  | ok x => exact .inl ⟨x, rfl⟩
  | error cause => exact .inr ⟨cause, rfl⟩

/-- A text that spells no parts is malformed. -/
theorem exists_spells_of_not_malformed {text : String}
    (h : ofText text ≠ .error (.malformed text .notDecimal)) :
    ∃ parts, DecimalText.Spells text.toList parts := by
  cases hparse : DecimalText.parse? text.toList with
  | none =>
      have hmalformed : ofText text = .error (.malformed text .notDecimal) := by
        simp only [ofText, hparse]
      exact absurd hmalformed h
  | some parts => exact ⟨parts, DecimalText.parse?_sound hparse⟩

end Operands

/-! ## Samples of rules -/

/-- The lower and upper texts of all samples. -/
def Samples.bounds (samples : Samples) : List String :=
  (samples.integer.toList ++ samples.decimal.toList).flatMap fun list =>
    list.ranges.flatMap fun range => [range.lower, range.upper]

theorem Samples.Writable.valueText_of_mem_bounds {samples : Samples} (h : samples.Writable) :
    ∀ bound ∈ samples.bounds, Sample.ValueText bound.toList := by
  intro bound hmem
  obtain ⟨list, hlist, hmem⟩ := List.mem_flatMap.mp hmem
  obtain ⟨range, hrange, hmem⟩ := List.mem_flatMap.mp hmem
  have hwritable : list.Writable := by
    rcases List.mem_append.mp hlist with hinteger | hdecimal
    · exact h.1 list (Option.mem_toList.mp hinteger)
    · exact h.2 list (Option.mem_toList.mp hdecimal)
  obtain ⟨hlower, hupper⟩ := hwritable.2 range hrange
  rcases List.mem_pair.mp hmem with rfl | rfl
  · exact hlower
  · exact hupper

namespace Rule

/-- The rule with a single integer sample. -/
def ofSample (text : String) : Rule :=
  { condition := .always, samples := { integer := some ⟨[⟨text, text⟩], false⟩ } }

theorem text_ofSample (sample : String) : (ofSample sample).text = "@integer " ++ sample := by
  simp [ofSample, text, Samples.parts, SampleList.render, SampleRange.render,
    SampleRange.isSingle, Condition.isAlways, Condition.always]

theorem writable_ofSample {text : String} (h : Sample.ValueText text.toList) :
    (ofSample text).Writable := by
  refine ⟨nofun, nofun, ?_, nofun⟩
  rintro list ⟨⟩
  exact ⟨List.cons_ne_nil _ _, List.forall_mem_singleton.mpr ⟨h, h⟩⟩

theorem parse_sample {text : String} (h : Sample.ValueText text.toList)
    (hlength : ("@integer " ++ text).length ≤ maxRuleLength) :
    parse ("@integer " ++ text) = .ok (ofSample text) := by
  rw [← text_ofSample] at hlength ⊢
  exact parse_text (writable_ofSample h) hlength

/-- Sample values and decimal texts are one language.  All bounds that a rule lists have operands or
exceed their limits.  A text without a sign is listed as it is written, if it is not malformed and
fits into a rule. -/
theorem samples_are_decimal_texts :
    (∀ source rule, parse source = .ok rule →
      ∀ bound ∈ rule.samples.bounds, Operands.ReadsOrOverflows bound) ∧
    ∀ text : String, Unsigned text.toList →
      (∀ input cause, Operands.ofText text ≠ .error (.malformed input cause)) →
      ("@integer " ++ text).length ≤ maxRuleLength →
      parse ("@integer " ++ text) =
        .ok { condition := .always, samples := { integer := some ⟨[⟨text, text⟩], false⟩ } } := by
  constructor
  · intro source rule h bound hmem
    obtain ⟨-, -, -, hsamples⟩ := parse_ok_writable h
    have hvalue := hsamples.valueText_of_mem_bounds bound hmem
    obtain ⟨-, parts, hspelled⟩ := valueText_iff_spells.mp hvalue
    exact Operands.readsOrOverflows_of_spells hspelled
  · intro text hunsigned hread hlength
    have hspelled := Operands.exists_spells_of_not_malformed (hread text .notDecimal)
    exact parse_sample (valueText_iff_spells.mpr ⟨hunsigned, hspelled⟩) hlength

/-- A listed bound may exceed the limits, and a compact number in range can be listed. -/
theorem samples_are_decimal_texts_compact :
    ∃ rule, parse "n = 1 @integer 1~1c22 @decimal 1.0" = .ok rule ∧
      rule.samples.bounds = ["1", "1c22", "1.0", "1.0"] ∧
      (∀ bound ∈ rule.samples.bounds, Operands.ReadsOrOverflows bound) ∧
      Operands.ofText "1c22" = .error (.overflow "1c22" .exponent) ∧
      (∃ x, Operands.ofText "1.50c3" = .ok x) ∧
      parse ("@integer " ++ "1.50c3") =
        .ok { condition := .always,
              samples := { integer := some ⟨[⟨"1.50c3", "1.50c3"⟩], false⟩ } } := by
  have hparse : parse "n = 1 @integer 1~1c22 @decimal 1.0" =
      .ok { condition := Condition.ofRanges .n ⟨.single 1, []⟩,
            samples := { integer := some ⟨[⟨"1", "1c22"⟩], false⟩,
                         decimal := some ⟨[⟨"1.0", "1.0"⟩], false⟩ } } := by
    decide +kernel
  have hunsigned : Unsigned "1.50c3".toList := ahead_cons.mpr (by decide)
  have hread : ∃ x, Operands.ofText "1.50c3" = .ok x := ⟨_, rfl⟩
  have hwellFormed : ∀ input cause,
      Operands.ofText "1.50c3" ≠ .error (.malformed input cause) := by
    obtain ⟨x, hx⟩ := hread
    intro input cause hmalformed
    rw [hx] at hmalformed
    cases hmalformed
  exact ⟨_, hparse, rfl, samples_are_decimal_texts.1 _ _ hparse, by decide, hread,
    samples_are_decimal_texts.2 "1.50c3" hunsigned hwellFormed (by decide)⟩

end Rule

end PluralForms
