import PluralForms.Proofs.Refusals
import PluralForms.Proofs.Stepwise.Reading

/-!
# The course of a reading

A reading by steps goes along with a reading if it ends in the same way: with its result, or with
what is raised for its refusal.  Sequences of steps go along with sequences of readings.  A cursor
that stands where what is left of the text begins always finds what it asks for.
-/

namespace PluralForms

open Text

def RuleError.refusal (e : RuleError) : Refusal where
  diagnostic := e.diagnostic
  kind := e.kind
  position := e.position
  source := e.source

namespace Stepwise

/-- The steps that end as a reading of `source` does, with its result seen in another way. -/
def along {α β : Type} (source : String) (view : α → β) : Except Issue α → Step β
  | .ok a => pure (view a)
  | .error issue => throw (.refused (RuleError.refusal { issue with source := source }))

section

variable {α β γ δ : Type} {source : String}

/-- Steps one after the other go along with readings one after the other. -/
theorem along_bind {outcome : Except Issue α} {next : α → Except Issue β} {view : α → γ}
    {last : β → δ} {step : γ → Step δ}
    (hnext : ∀ a, outcome = .ok a → step (view a) = along source last (next a)) :
    (along source view outcome >>= step) = along source last (outcome >>= next) := by
  cases outcome with
  | error issue => rfl
  | ok a => exact hnext a rfl

theorem along_pure (view : α → β) (a : α) :
    along source view (.ok a) = (pure (view a) : Step β) := rfl

theorem pure_bind_step (a : α) (step : α → Step β) : (pure a >>= step) = step a := rfl

theorem checked_ok {ε : Type} (fault : ε → Fault) (a : α) :
    checked fault (.ok a) = (pure a : Step α) := rfl

/-! ## Refusals -/

theorem ofBounds?_natCast (start length : Nat) :
    Span.ofBounds? (start : Int) ((start : Int) + length) = .ok (.ofLength start length) := by
  have hstart : ¬(start : Int) < 0 := by omega
  have hstop : ¬(start : Int) + length < start := by omega
  simp only [Span.ofBounds?, if_neg hstart, dif_neg hstop, Span.ofLength]
  congr

/-- A diagnostic that has the span of its text keeps it. -/
theorem refuse_eq (kind : Problem.Kind) (source : String) (start length : Nat)
    {diagnostic : Nat → Diagnostic}
    (hspan : (diagnostic start).span = some (.ofLength start length)) :
    refuse (α := α) kind source start length diagnostic =
      throw (.refused ⟨diagnostic start, kind, start, source⟩) := by
  have hsame : { diagnostic start with span := some (.ofLength start length) } =
      diagnostic start := by
    rw [← hspan]
  rw [refuse, ofBounds?_natCast, checked_ok, pure_bind_step]
  show throw (Fault.refused ⟨{ diagnostic start with span := some (.ofLength start length) },
    kind, start, source⟩) = _
  rw [hsame]

variable (view : α → β)

theorem unexpectedToken_eq (start : Nat) (found : String) (expected : Option Expectation) :
    unexpectedToken source source start found
        ((expected.map Expectation.descriptions).getD []) =
      along source view (.error ⟨.unexpected found expected, start⟩) :=
  refuse_eq _ _ _ _ rfl

theorem unexpectedEnd_eq (start : Nat) (expected : Expectation) :
    unexpectedEnd source start expected =
      along source view (.error ⟨.ended expected, start⟩) :=
  refuse_eq _ _ _ _ rfl

theorem invalidOperand_eq (token : Token) :
    invalidOperand source token =
      along source view (.error ⟨.unknownOperand token.text, token.position⟩) :=
  refuse_eq _ _ _ _ rfl

theorem invalidNumber_eq (token : Token) (fault : LiteralFault) :
    invalidNumber source token fault =
      along source view (.error (Condition.badLiteral token fault)) :=
  refuse_eq _ _ _ _ rfl

end

/-! ## Characters -/

def cursorAt (source : String) (s : Suffix) : Cursor := ⟨source, s.position⟩

def withCursor {α : Type} (source : String) (result : α × Suffix) : α × Cursor :=
  (result.1, cursorAt source result.2)

section Characters

variable {source : String} {s : Suffix}

theorem atEnd_cursorAt (hs : s.Within source.toList) :
    (cursorAt source s).atEnd = s.chars.isEmpty := by
  have hlength : s.chars = [] ↔ source.length ≤ s.position := by
    rw [hs.2, List.drop_eq_nil_iff, String.length_toList]
  rw [Bool.eq_iff_iff, List.isEmpty_iff, hlength]
  simp [Cursor.atEnd, cursorAt]

theorem peek_cursorAt (hs : s.Within source.toList) (count : Nat) :
    peek (cursorAt source s) count = pure s.chars[count]? := by
  rw [peek, Cursor.peek, cursorAt, ← Int.natCast_add, ahead_natCast, hs.2, List.getElem?_drop]
  show pure ((source.toList.drop (s.position + count)).head?) = _
  rw [List.head?_drop]

theorem current_cursorAt (hs : s.Within source.toList) {c : Char} {tail : List Char}
    (hchars : s.chars = c :: tail) : current (cursorAt source s) = pure c := by
  have hpeek : (cursorAt source s).peek 0 = .ok (some c) := by
    rw [Cursor.peek, cursorAt, Int.add_zero, ahead_natCast, ← hs.2, hchars]
    rfl
  rw [current, Cursor.current, hpeek]
  rfl

theorem standsAt_cursorAt (hs : s.Within source.toList) (c : Char) :
    standsAt c (cursorAt source s) = pure (s.chars.head? == some c) := by
  rw [standsAt, atEnd_cursorAt hs]
  cases hchars : s.chars with
  | nil => rfl
  | cons found tail =>
      simp only [List.isEmpty_cons, Bool.false_eq_true, if_false, current_cursorAt hs hchars,
        List.head?_cons]
      rfl

theorem takeWhile_cursorAt (hs : s.Within source.toList) (p : Char → Bool) :
    takeWhile (cursorAt source s) p =
      pure (String.ofList (s.chars.takeWhile p), cursorAt source (s.dropRun p)) := by
  rw [takeWhile, cursorAt, Cursor.takeWhile_natCast, ← hs.2]
  rfl

theorem skipBlanks_cursorAt (hs : s.Within source.toList) :
    skipBlanks (cursorAt source s) = pure (cursorAt source s.skipBlanks) := by
  rw [skipBlanks, Cursor.skipBlanks, cursorAt, Cursor.takeWhile_natCast, ← hs.2]
  rfl

theorem advance_cursorAt (hs : s.Within source.toList) (count : Nat) :
    (cursorAt source s).advance count = cursorAt source (s.drop count) := by
  have hle := hs.1
  have hlength : s.chars.length = source.length - s.position := by
    rw [hs.2, List.length_drop, String.length_toList]
  rw [String.length_toList] at hle
  simp only [Cursor.advance, cursorAt, Suffix.drop, Cursor.mk.injEq, true_and]
  omega

theorem checkLength_eq (source : String) :
    checkLength source = along source id (PluralForms.checkLength source.toList) := by
  by_cases hlong : maxRuleLength < source.length
  · have hle : maxRuleLength ≤ source.toList.length := by
      rw [String.length_toList]
      omega
    have hwithin : (Suffix.ofText source.toList maxRuleLength).Within source.toList :=
      Suffix.ofText_within hle
    cases hrest : source.toList.drop maxRuleLength with
    | nil =>
        rw [List.drop_eq_nil_iff, String.length_toList] at hrest
        omega
    | cons next rest =>
        have hcurrent : current ⟨source, maxRuleLength⟩ = pure next :=
          current_cursorAt hwithin hrest
        have hrefused : PluralForms.checkLength source.toList =
            .error ⟨.tooLong next, maxRuleLength⟩ := by
          rw [PluralForms.checkLength, hrest]
        rw [checkLength, if_pos hlong, hcurrent, pure_bind_step, hrefused]
        exact refuse_eq _ _ _ _ rfl
  · have hshort : source.toList.length ≤ maxRuleLength := by
      rw [String.length_toList]
      omega
    rw [checkLength, if_neg hlong, checkLength_eq_ok_iff.mpr hshort]
    rfl

end Characters

end Stepwise

end PluralForms
