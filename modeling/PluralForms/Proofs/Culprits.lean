import PluralForms.Proofs.Annotations
import PluralForms.Proofs.Stepwise.Samples

/-!
# Refusals and their culprits

Reading a condition or a rule step by step always ends, and fails in one way only: it refuses the
text.  The refusal knows the text, its diagnostic has the code of its kind, and its span is the
piece of text that the message quotes, or lies empty at an end.
-/

namespace PluralForms

open Text

/-- The words in front of the quoted piece; nothing is quoted at an end. -/
def Problem.Kind.lead : Problem.Kind → String
  | unexpectedToken => "Unexpected '"
  | unexpectedEnd => "Unexpected end of rule at position "
  | invalidOperand => "Unknown operand '"
  | invalidNumber => "Invalid number '"

/-- The piece of a text that a span covers. -/
def Span.piece (span : Span) (source : String) : List Char :=
  (source.toList.take span.stop).drop span.start

/-- A refusal points at its culprit in the text. -/
structure Refusal.PointsInto (source : String) (refusal : Refusal) : Prop where
  source_eq : refusal.source = source
  position_nonneg : 0 ≤ refusal.position
  position_le : refusal.position ≤ source.length
  code_name : refusal.diagnostic.code.name.toList = refusal.kind.name.toList.map Char.toUpper
  span : ∃ span : Span, refusal.diagnostic.span = some span ∧
    (span.start : Int) = refusal.position ∧
    if refusal.kind = .unexpectedEnd then
      span.stop = span.start ∧
        (span.start = source.length ∨ span.start = source.toList.idxOf sampleMarker)
    else
      span.piece source ≠ [] ∧ ∃ rest, refusal.diagnostic.message =
        refusal.kind.lead ++ String.ofList (span.piece source) ++ "' at position " ++
          toString span.start ++ rest

/-! ## Spans -/

section

variable {source : String} {position : Nat} {found : String}
  (hne : found.toList ≠ []) (hfront : found.toList <+: source.toList.drop position)

include hne hfront

theorem piece_pieceSpan : (Diagnostic.pieceSpan position found).piece source = found.toList := by
  have hlength : max 1 found.length = found.toList.length := by
    have hpos := List.length_pos_iff.mpr hne
    rw [String.length_toList] at hpos ⊢
    omega
  show (source.toList.take (position + max 1 found.length)).drop position = found.toList
  rw [hlength, List.drop_take, Nat.add_sub_cancel_left]
  exact (List.prefix_iff_eq_take.mp hfront).symm

theorem exists_span_of_found {diagnostic : Diagnostic} {lead rest : String}
    (hspan : diagnostic.span = some (Diagnostic.pieceSpan position found))
    (hmessage : diagnostic.message =
      lead ++ found ++ "' at position " ++ toString position ++ rest) :
    ∃ span : Span, diagnostic.span = some span ∧ (span.start : Int) = position ∧
      span.piece source ≠ [] ∧ ∃ rest, diagnostic.message =
        lead ++ String.ofList (span.piece source) ++ "' at position " ++
          toString span.start ++ rest := by
  have hpiece := piece_pieceSpan hne hfront
  refine ⟨Diagnostic.pieceSpan position found, hspan, rfl, ?_, rest, ?_⟩
  · rwa [hpiece]
  · rw [hpiece, String.ofList_toList]
    exact hmessage

end

theorem code_name_eq (kind : Problem.Kind) :
    kind.code.name.toList = kind.name.toList.map Char.toUpper := by
  cases kind <;> decide

theorem Issue.PointsInto.refusal {source : String} {issue : Issue}
    (h : issue.PointsInto source.toList) :
    (RuleError.refusal { issue with source := source }).PointsInto source := by
  have hle := h.position_le
  rw [String.length_toList] at hle
  constructor
  · rfl
  · exact Int.natCast_nonneg _
  · exact Int.ofNat_le.mpr hle
  · show (RuleError.diagnostic _).code.name.toList = _
    rw [RuleError.code_diagnostic]
    exact code_name_eq _
  · cases h with
    | @ended expected position hend =>
        rw [String.length_toList] at hend
        exact ⟨.ofLength position 0, rfl, rfl, rfl, hend⟩
    | @quoted problem position hne hfront =>
        cases problem with
        | unexpected found expected =>
            exact exists_span_of_found hne hfront rfl (String.append_empty).symm
        | ended expected => exact absurd rfl hne
        | unknownOperand name =>
            exact exists_span_of_found hne hfront rfl (String.append_empty).symm
        | literal text fault =>
            have hmessage : (Diagnostic.invalidNumber source position text fault.reason).message =
                Problem.Kind.invalidNumber.lead ++ text ++ "' at position " ++
                  toString position ++ (": " ++ fault.reason) := by
              rw [← String.append_assoc]
              rfl
            exact exists_span_of_found hne hfront rfl hmessage
        | tooLong next =>
            rw [Problem.quoted, ← String.toList_singleton] at hne hfront
            exact exists_span_of_found hne hfront rfl (String.append_empty).symm

/-! ## Texts -/

/-- Whatever the text, reading its condition or all of it step by step comes to an end, with no
more turns of a loop than one for each character and one: never is a character, a token, a number, a
range or a span asked for that is not there.  The outcome is that of the other readers, and what is
raised points at its culprit. -/
theorem Stepwise.ends_pointing_at_culprit (source : String) :
    (∀ turns, source.length < turns →
      parseCondition turns source =
          some ((Condition.parse source).mapError fun e => Fault.refused e.refusal) ∧
        parseRule turns source =
          some ((Rule.parse source).mapError fun e => Fault.refused e.refusal)) ∧
      ∀ e, Condition.parse source = .error e ∨ Rule.parse source = .error e →
        e.refusal.PointsInto source := by
  constructor
  · intro turns hturns
    exact ⟨parseCondition_eq hturns, parseRule_eq hturns⟩
  · rintro ⟨issue, text⟩ (hrefused | hrefused)
    · obtain ⟨hread, rfl⟩ := Condition.parse_eq_error_iff.mp hrefused
      exact (Condition.pointsInto_of_readText_error hread).refusal
    · obtain ⟨hread, rfl⟩ := Rule.parse_eq_error_iff.mp hrefused
      exact (Rule.pointsInto_of_readText_error hread).refusal

/-- A sample range without its upper value is refused at the end of the text. -/
theorem Stepwise.ends_pointing_at_culprit_unfinished :
    ∃ e, Stepwise.parseRule 18 "n = 1 @integer 1~" = some (.error (.refused e)) ∧
      e.PointsInto "n = 1 @integer 1~" ∧ e.position = 17 := by
  obtain ⟨hends, hpoints⟩ := ends_pointing_at_culprit "n = 1 @integer 1~"
  have hturns : "n = 1 @integer 1~".length < 18 := by
    decide
  have hrule := (hends 18 hturns).2
  have hparse : Rule.parse "n = 1 @integer 1~" =
      .error ⟨⟨.ended .sampleValue, 17⟩, "n = 1 @integer 1~"⟩ := by
    decide +kernel
  rw [hparse] at hrule
  exact ⟨_, hrule, hpoints _ (.inr hparse), rfl⟩

end PluralForms
