import Mathlib.Algebra.Order.Field.Basic
import Mathlib.Tactic.FieldSimp
import PluralForms.Proofs.Cutting
import PluralForms.Proofs.DisplayedNumber

/-!
# Operands of decimal texts

A decimal text spells its parts, and the exponent among them moves the point to the right.  The
operands are those of the number that this gives, as if it had been written without an exponent, but
for the exponent itself.  A text is refused when it spells no parts or when they exceed a limit.
-/

namespace PluralForms

open Text

namespace DecimalText

/-! ## Spelling -/

inductive SignText : List Char → Prop where
  | absent : SignText []
  | plus : SignText ['+']
  | minus : SignText ['-']

/-- Nothing, or a mark and one or more digits. -/
inductive PartText (isMark : Char → Bool) : List Char → Option (List Char) → Prop where
  | absent : PartText isMark [] none
  | present {mark digits} (hmark : isMark mark = true) (hne : digits ≠ [])
      (hrun : IsDigitRun digits) : PartText isMark (mark :: digits) (some digits)

/-- A sign, digits, a point and digits, `c` or `e` and digits; all but the first digits at will. -/
inductive Spells : List Char → DecimalText → Prop where
  | intro {sign whole pointed marked fraction exponent} (hsign : SignText sign) (hne : whole ≠ [])
      (hrun : IsDigitRun whole) (hfraction : PartText (· == '.') pointed fraction)
      (hexponent : PartText (fun c => c == 'c' || c == 'e') marked exponent) :
      Spells (sign ++ (whole ++ (pointed ++ marked))) ⟨whole, fraction.getD [], exponent⟩

theorem unsigned_sound (chars : List Char) :
    ∃ sign, SignText sign ∧ chars = sign ++ unsigned chars := by
  cases chars with
  | nil => exact ⟨[], .absent, rfl⟩
  | cons c rest =>
      by_cases hplus : c = '+'
      · subst hplus
        exact ⟨['+'], .plus, rfl⟩
      · by_cases hminus : c = '-'
        · subst hminus
          exact ⟨['-'], .minus, rfl⟩
        · exact ⟨[], .absent, by simp [unsigned, hplus, hminus]⟩

theorem unsigned_complete {sign rest : List Char} {digit : Char} (hsign : SignText sign)
    (hdigit : isDigit digit = true) : unsigned (sign ++ digit :: rest) = digit :: rest := by
  cases hsign with
  | absent =>
      have hplus : digit ≠ '+' := by
        rintro rfl
        exact absurd hdigit (by decide)
      have hminus : digit ≠ '-' := by
        rintro rfl
        exact absurd hdigit (by decide)
      simp [unsigned, hplus, hminus]
  | plus => rfl
  | minus => rfl

theorem part?_sound {isMark : Char → Bool} {chars rest : List Char} {part : Option (List Char)}
    (h : part? isMark chars = some (part, rest)) :
    ∃ text, chars = text ++ rest ∧ PartText isMark text part := by
  cases chars with
  | nil =>
      cases h
      exact ⟨[], rfl, .absent⟩
  | cons c more =>
      simp only [part?] at h
      split at h
      · next hmark =>
          split at h
          · cases h
          · next digit digits hrun =>
              cases h
              have hall := isDigitRun_takeWhile more
              rw [hrun] at hall
              refine ⟨c :: digit :: digits, ?_, .present hmark (List.cons_ne_nil _ _) hall⟩
              rw [List.cons_append, ← hrun, List.takeWhile_append_dropWhile]
      · cases h
        exact ⟨[], rfl, .absent⟩

theorem part?_complete {isMark : Char → Bool} {text rest : List Char} {part : Option (List Char)}
    (hpart : PartText isMark text part)
    (hrest : Ahead (fun c => isDigit c = false ∧ isMark c = false) rest) :
    part? isMark (text ++ rest) = some (part, rest) := by
  cases hpart with
  | absent =>
      cases rest with
      | nil => rfl
      | cons c more =>
          have hmark : isMark c = false := (ahead_cons.mp hrest).2
          simp [part?, hmark]
  | present hmark hne hrun =>
      obtain ⟨digit, digits, rfl⟩ := List.exists_cons_of_ne_nil hne
      have hdigits : Ahead (fun c => isDigit c = false) rest := hrest.mono fun _ h => h.1
      simp only [part?, List.cons_append, hmark, if_true]
      rw [← List.cons_append, takeWhile_run hrun hdigits, dropWhile_run hrun hdigits]

theorem PartText.ahead {isMark : Char → Bool} {text : List Char} {part : Option (List Char)}
    (h : PartText isMark text part) {p : Char → Prop} (hmark : ∀ c, isMark c = true → p c)
    {rest : List Char} (hrest : Ahead p rest) : Ahead p (text ++ rest) := by
  cases h with
  | absent => exact hrest
  | present hfirst hne hrun => exact ahead_cons.mpr (hmark _ hfirst)

theorem parse?_sound {chars : List Char} {parts : DecimalText} (h : parse? chars = some parts) :
    Spells chars parts := by
  simp only [parse?, Option.bind_eq_bind, Option.bind_eq_some_iff] at h
  obtain ⟨_, hwhole, ⟨fraction, afterPoint⟩, hfraction, ⟨exponent, rest⟩, hexponent, _, hrest, h⟩ :=
    h
  cases h
  dsimp only at hexponent hrest ⊢
  obtain ⟨sign, hsign, hchars⟩ := unsigned_sound chars
  obtain ⟨pointed, hpointed, hfractionText⟩ := part?_sound hfraction
  obtain ⟨marked, hmarked, hexponentText⟩ := part?_sound hexponent
  have hnil : rest = [] := by simpa using hrest
  have hne : (unsigned chars).takeWhile isDigit ≠ [] := by simpa using hwhole
  have hbody := List.takeWhile_append_dropWhile (p := isDigit) (l := unsigned chars)
  rw [hpointed, hmarked, hnil, List.append_nil] at hbody
  have hspelled := Spells.intro hsign hne (isDigitRun_takeWhile _) hfractionText hexponentText
  rw [hbody, ← hchars] at hspelled
  exact hspelled

theorem parse?_complete {chars : List Char} {parts : DecimalText} (h : Spells chars parts) :
    parse? chars = some parts := by
  cases h with
  | @intro sign whole pointed marked fraction exponent hsign hne hrun hfraction hexponent =>
      -- No part can go on with the first character of the next one.
      have hmarked : Ahead (fun c => isDigit c = false ∧ (c == '.') = false) marked := by
        rw [← List.append_nil marked]
        refine hexponent.ahead ?_ (ahead_nil _)
        intro c hc
        rcases Bool.or_eq_true_iff.mp hc with hc | hc <;> rw [eq_of_beq hc] <;> decide
      have hpointed : Ahead (fun c => isDigit c = false) (pointed ++ marked) := by
        refine hfraction.ahead ?_ (hmarked.mono fun _ h => h.1)
        intro c hc
        rw [eq_of_beq hc]
        decide
      have hbody : unsigned (sign ++ (whole ++ (pointed ++ marked))) =
          whole ++ (pointed ++ marked) := by
        obtain ⟨digit, digits, rfl⟩ := List.exists_cons_of_ne_nil hne
        exact unsigned_complete hsign (hrun digit List.mem_cons_self)
      have hlast := part?_complete hexponent (ahead_nil _)
      rw [List.append_nil] at hlast
      have hwhole : (!whole.isEmpty) = true := by simpa using hne
      simp only [parse?, hbody, takeWhile_run hrun hpointed,
        dropWhile_run hrun hpointed, part?_complete hfraction hmarked, hlast, hwhole, guard,
        if_true, Option.bind_eq_bind, Option.bind_some, List.isEmpty_nil, pure]

theorem parse?_eq_some_iff {chars : List Char} {parts : DecimalText} :
    parse? chars = some parts ↔ Spells chars parts :=
  ⟨parse?_sound, parse?_complete⟩

end DecimalText

/-! ## The moved point -/

namespace Operands

/-- The digits that the point passes stand before it, with zeros where they do not suffice. -/
theorem movePoint_eq (whole fraction : List Char) (places : Nat) :
    movePoint whole fraction places =
      (whole ++ (fraction.take places ++ List.replicate (places - fraction.length) '0'),
        fraction.drop places) := by
  have hzeros : whole.length + places - (whole ++ fraction).length = places - fraction.length := by
    rw [List.length_append]
    omega
  simp only [movePoint, hzeros, List.take_length_add_append, List.drop_length_add_append,
    List.append_assoc]

theorem length_movePoint (whole fraction : List Char) (places : Nat) :
    (movePoint whole fraction places).2.length = fraction.length - places := by
  rw [movePoint_eq, List.length_drop]

theorem digitsValue_movePoint (whole fraction : List Char) (places : Nat) :
    digitsValue ((movePoint whole fraction places).1 ++ (movePoint whole fraction places).2) =
      digitsValue (whole ++ fraction) * 10 ^ (places - fraction.length) := by
  have hdigits : (movePoint whole fraction places).1 ++ (movePoint whole fraction places).2 =
      whole ++ fraction ++ List.replicate (places - fraction.length) '0' := by
    rw [movePoint_eq]
    rcases Nat.le_total places fraction.length with h | h
    · simp [Nat.sub_eq_zero_of_le h]
    · simp [List.take_of_length_le h, List.drop_eq_nil_iff.mpr h]
  rw [hdigits, digitsValue_append, digitsValue_zeros, List.length_replicate, Nat.add_zero]

/-- The digits before the moved point are what a division leaves of the moved number. -/
theorem digitsValue_movePoint_fst {whole fraction : List Char} (hwhole : IsDigitRun whole)
    (hfraction : IsDigitRun fraction) (places : Nat) :
    digitsValue (movePoint whole fraction places).1 =
      digitsValue (whole ++ fraction) * 10 ^ places / 10 ^ fraction.length := by
  have hvalue := digitsValue_movePoint whole fraction places
  have hlt := digitsValue_lt (isDigitRun_movePoint hwhole hfraction places).2
  rw [digitsValue_append, length_movePoint] at hvalue
  rw [length_movePoint] at hlt
  rcases Nat.le_total places fraction.length with h | h
  · -- Multiplying takes away what the division by the passed places would have done.
    have hpow : 10 ^ fraction.length = 10 ^ (fraction.length - places) * 10 ^ places := by
      rw [← Nat.pow_add, Nat.sub_add_cancel h]
    rw [Nat.sub_eq_zero_of_le h, Nat.pow_zero, Nat.mul_one] at hvalue
    rw [hpow, Nat.mul_div_mul_right _ _ (Nat.pow_pos (by omega)), ← hvalue, Nat.mul_comm,
      Nat.mul_add_div (Nat.pow_pos (by omega)), Nat.div_eq_of_lt hlt, Nat.add_zero]
  · have hpow : 10 ^ places = 10 ^ (places - fraction.length) * 10 ^ fraction.length := by
      rw [← Nat.pow_add, Nat.sub_add_cancel h]
    rw [Nat.sub_eq_zero_of_le h, Nat.pow_zero] at hvalue hlt
    rw [hpow, ← Nat.mul_assoc, Nat.mul_div_cancel _ (Nat.pow_pos (by omega)), ← hvalue]
    omega

/-- The moved digits stand for the number of all digits times a power of ten. -/
theorem value_movePoint (whole fraction : List Char) (places : Nat) :
    (FixedPoint.mk (digitsValue
      ((movePoint whole fraction places).1 ++ (movePoint whole fraction places).2))
      (movePoint whole fraction places).2.length).value =
      digitsValue (whole ++ fraction) * (10 : ℚ) ^ ((places : ℤ) - fraction.length) := by
  rw [FixedPoint.value, digitsValue_movePoint, length_movePoint]
  push_cast
  rcases Nat.le_total places fraction.length with h | h
  · rw [Nat.sub_eq_zero_of_le h, pow_zero, mul_one, ← neg_sub, zpow_neg, ← Nat.cast_sub h,
      zpow_natCast, div_eq_mul_inv]
  · rw [Nat.sub_eq_zero_of_le h, pow_zero, div_one, ← Nat.cast_sub h, zpow_natCast]

theorem ofDigits_eq_ok_iff {whole fraction : List Char} {places : Nat} {x : Operands} :
    ofDigits whole fraction places = .ok x ↔
      digitsValue (movePoint whole fraction places).1 ≤ maxInteger ∧
        (movePoint whole fraction places).2.length ≤ maxFractionDigits ∧
        x = ofSplit (movePoint whole fraction places).1 (movePoint whole fraction places).2
          places := by
  simp only [ofDigits]
  split
  · next h => simp [Nat.not_le.mpr h]
  · split
    · next h => simp [Nat.not_le.mpr h]
    · next hwhole hfraction =>
        simp [Nat.not_lt.mp hwhole, Nat.not_lt.mp hfraction, eq_comm]

/-- The digits around the moved point have the same operands, without an exponent. -/
theorem ofDigits_movePoint {whole fraction : List Char} {places : Nat} {x : Operands}
    (h : ofDigits whole fraction places = .ok x) :
    ofDigits (movePoint whole fraction places).1 (movePoint whole fraction places).2 0 =
      .ok { x with c := 0 } := by
  obtain ⟨hwhole, hfraction, rfl⟩ := ofDigits_eq_ok_iff.mp h
  refine ofDigits_eq_ok_iff.mpr ?_
  rw [movePoint_zero]
  exact ⟨hwhole, hfraction, rfl⟩

theorem ofDigits_leadingZeros (zeros : Nat) (whole fraction : List Char) (places : Nat) :
    ofDigits (List.replicate zeros '0' ++ whole) fraction places =
      ofDigits whole fraction places := by
  have hvalue : ∀ digits,
      digitsValue (List.replicate zeros '0' ++ digits) = digitsValue digits := by
    intro digits
    rw [digitsValue_append, digitsValue_zeros, Nat.zero_mul, Nat.zero_add]
  simp only [ofDigits, ofSplit, movePoint_eq, List.append_assoc, hvalue]

end Operands

namespace DecimalText

/-! ## What is displayed -/

def places (text : DecimalText) : Nat := digitsValue (text.exponent.getD [])

/-- The number without an exponent: the point as many places further to the right, and zeros where
the digits end before it. -/
def plain (text : DecimalText) : List Char :=
  if text.places < text.fraction.length then
    text.whole ++ (text.fraction.take text.places ++ '.' :: text.fraction.drop text.places)
  else text.whole ++ (text.fraction ++ List.replicate (text.places - text.fraction.length) '0')

theorem compact_eq (text : DecimalText) :
    text.compact =
      if 3 < (text.exponent.getD []).length ∨ maxCompactExponent < text.places then .error .exponent
      else .ok text.places := by
  unfold compact places
  cases text.exponent <;> rfl

theorem operands_eq_ok_iff {text : DecimalText} {x : Operands} :
    text.operands = .ok x ↔
      (text.exponent.getD []).length ≤ 3 ∧ text.places ≤ maxCompactExponent ∧
        Operands.ofDigits text.whole text.fraction text.places = .ok x := by
  rw [operands, compact_eq]
  split
  · next h =>
      constructor
      · intro hrefused
        cases hrefused
      · rintro ⟨hlength, hplaces, -⟩
        omega
  · next h =>
      have hfits : (text.exponent.getD []).length ≤ 3 ∧ text.places ≤ maxCompactExponent := by
        omega
      show Operands.ofDigits text.whole text.fraction text.places = .ok x ↔ _
      simp [hfits]

section

variable {text : String} {parts : DecimalText}

theorem Spells.isDigitRun {chars : List Char} (h : Spells chars parts) :
    IsDigitRun parts.whole ∧ IsDigitRun parts.fraction :=
  Operands.parse?_isDigitRun (parse?_complete h)

theorem Spells.whole_ne_nil {chars : List Char} (h : Spells chars parts) : parts.whole ≠ [] := by
  cases h with
  | intro hsign hne hrun hfraction hexponent => exact hne

theorem ofText_of_spells (h : Spells text.toList parts) :
    Operands.ofText text = Operands.shown text parts.operands := by
  rw [Operands.ofText, parse?_complete h]

theorem ofText_eq_ok_iff {x : Operands} (h : Spells text.toList parts) :
    Operands.ofText text = .ok x ↔ parts.operands = .ok x := by
  rw [ofText_of_spells h, Operands.shown, mapError_eq_ok_iff]

theorem spells_pointed {whole fraction : List Char} (hne : whole ≠ []) (hwhole : IsDigitRun whole)
    (hfraction : IsDigitRun fraction) :
    Spells (if fraction = [] then whole else whole ++ '.' :: fraction) ⟨whole, fraction, none⟩ := by
  by_cases hnil : fraction = []
  · have hspelled := Spells.intro .absent hne hwhole .absent .absent
    rw [if_pos hnil, hnil]
    simpa using hspelled
  · have hpart : PartText (· == '.') ('.' :: fraction) (some fraction) :=
      .present (beq_self_eq_true '.') hnil hfraction
    have hspelled := Spells.intro .absent hne hwhole hpart .absent
    rw [if_neg hnil]
    simpa using hspelled

theorem plain_eq (parts : DecimalText) :
    parts.plain =
      let moved := Operands.movePoint parts.whole parts.fraction parts.places
      if moved.2 = [] then moved.1 else moved.1 ++ '.' :: moved.2 := by
  simp only [plain, Operands.movePoint_eq, List.drop_eq_nil_iff]
  rcases Nat.lt_or_ge parts.places parts.fraction.length with h | h
  · rw [if_pos h, if_neg (Nat.not_le.mpr h), Nat.sub_eq_zero_of_le h.le]
    simp
  · rw [if_neg (Nat.not_lt.mpr h), if_pos h, List.take_of_length_le h]

theorem Spells.plain {chars : List Char} (h : Spells chars parts) :
    Spells parts.plain
      ⟨(Operands.movePoint parts.whole parts.fraction parts.places).1,
        (Operands.movePoint parts.whole parts.fraction parts.places).2, none⟩ := by
  obtain ⟨hwhole, hfraction⟩ := h.isDigitRun
  have hmoved := Operands.isDigitRun_movePoint hwhole hfraction parts.places
  have hne : (Operands.movePoint parts.whole parts.fraction parts.places).1 ≠ [] := by
    simp [Operands.movePoint_eq, h.whole_ne_nil]
  rw [plain_eq]
  exact spells_pointed hne hmoved.1 hmoved.2

end

end DecimalText

namespace Operands

open DecimalText

/-- The operands of a decimal text are those of the number with the point moved: the sign and the
letter before the exponent have no effect, and without the exponent only `c` is different. -/
theorem ofText_displays {text : String} {parts : DecimalText} {x : Operands}
    (hspelled : Spells text.toList parts) (h : ofText text = .ok x) :
    x.c = parts.places ∧
    x.n.value = digitsValue (parts.whole ++ parts.fraction) *
      (10 : ℚ) ^ ((parts.places : ℤ) - parts.fraction.length) ∧
    x.v = parts.fraction.length - parts.places ∧
    (∀ other : String, Spells other.toList parts → ofText other = .ok x) ∧
    ofText (String.ofList parts.plain) = .ok { x with c := 0 } := by
  have hoperands := (ofText_eq_ok_iff hspelled).mp h
  obtain ⟨-, -, hdigits⟩ := operands_eq_ok_iff.mp hoperands
  obtain ⟨-, -, hx⟩ := ofDigits_eq_ok_iff.mp hdigits
  refine ⟨?_, ?_, ?_, ?_, ?_⟩
  · rw [hx]
    rfl
  · rw [hx]
    exact value_movePoint parts.whole parts.fraction parts.places
  · rw [hx]
    exact length_movePoint parts.whole parts.fraction parts.places
  · intro other hother
    exact (ofText_eq_ok_iff hother).mpr hoperands
  · have hplain := hspelled.plain
    rw [← String.toList_ofList (l := parts.plain)] at hplain
    exact (ofText_eq_ok_iff hplain).mpr
      (operands_eq_ok_iff.mpr ⟨Nat.zero_le _, Nat.zero_le _, ofDigits_movePoint hdigits⟩)

/-- With a compact exponent the point of "1.2340c2" moves behind two more digits. -/
theorem ofText_displays_hundreds :
    Spells "1.2340c2".toList ⟨['1'], "2340".toList, some ['2']⟩ ∧
      ofText "1.2340c2" = .ok hundreds ∧ ofText "123.40" = .ok { hundreds with c := 0 } := by
  have hspelled : Spells "1.2340c2".toList ⟨['1'], "2340".toList, some ['2']⟩ :=
    parse?_eq_some_iff.mp (by decide)
  obtain ⟨-, -, -, -, hplain⟩ := ofText_displays hspelled ofText_hundreds
  exact ⟨hspelled, ofText_hundreds, hplain⟩

end Operands

namespace DecimalText

/-! ## What is refused -/

def integerPart (text : DecimalText) : Nat :=
  digitsValue (text.whole ++ text.fraction) * 10 ^ text.places / 10 ^ text.fraction.length

/-- A number beyond the limits: its exponent, its integer part or the count of its fraction digits
that remain behind the moved point. -/
def OutOfRange (text : DecimalText) : Prop :=
  21 < text.places ∨ 2 ^ 64 - 1 < text.integerPart ∨ 18 < text.fraction.length - text.places

section

variable {parts : DecimalText}

theorem exists_operands_iff (hwhole : IsDigitRun parts.whole)
    (hfraction : IsDigitRun parts.fraction) :
    (∃ x, parts.operands = .ok x) ↔ ¬(3 < (parts.exponent.getD []).length ∨ parts.OutOfRange) := by
  have hmoved := Operands.digitsValue_movePoint_fst hwhole hfraction parts.places
  have hlength := Operands.length_movePoint parts.whole parts.fraction parts.places
  simp only [operands_eq_ok_iff, Operands.ofDigits_eq_ok_iff, hmoved, hlength, OutOfRange,
    integerPart, maxCompactExponent, maxInteger, maxFractionDigits, not_or, Nat.not_lt]
  constructor
  · rintro ⟨x, hlong, hexponent, hinteger, hshown, -⟩
    exact ⟨hlong, hexponent, hinteger, hshown⟩
  · rintro ⟨hlong, hexponent, hinteger, hshown⟩
    exact ⟨_, hlong, hexponent, hinteger, hshown, rfl⟩

theorem operands_leadingZeros (parts : DecimalText) (zeros : Nat) :
    operands { parts with whole := List.replicate zeros '0' ++ parts.whole } = parts.operands := by
  show (parts.compact >>= fun compact => Operands.ofDigits _ _ compact) = _
  simp only [Operands.ofDigits_leadingZeros, operands]

theorem overflow_iff {text : String} (h : Spells text.toList parts) :
    (∃ cause, Operands.ofText text = .error (.overflow text cause)) ↔
      ¬∃ x, parts.operands = .ok x := by
  rw [ofText_of_spells h, Operands.shown]
  cases parts.operands <;> simp [Except.mapError]

end

end DecimalText

namespace Operands

open DecimalText

/-- What becomes of a text: it is malformed just if it spells no parts, and otherwise it is refused
just if the number is out of range or its exponent is written with more than three digits.  Zeros
in front of the digits change nothing. -/
theorem ofText_verdict (text : String) :
    (ofText text = .error (.malformed text .notDecimal) ↔ ¬∃ parts, Spells text.toList parts) ∧
    ∀ parts, Spells text.toList parts →
      ((∃ cause, ofText text = .error (.overflow text cause)) ↔
        3 < (parts.exponent.getD []).length ∨ parts.OutOfRange) ∧
      ((∃ x, ofText text = .ok x) ↔
        ¬(3 < (parts.exponent.getD []).length ∨ parts.OutOfRange)) ∧
      ∀ (zeros : Nat) (other : String),
        Spells other.toList { parts with whole := List.replicate zeros '0' ++ parts.whole } →
        (∀ x, ofText other = .ok x ↔ ofText text = .ok x) ∧
          ∀ cause, ofText other = .error (.overflow other cause) ↔
            ofText text = .error (.overflow text cause) := by
  constructor
  · cases hparse : parse? text.toList with
    | none =>
        have hnone : ¬∃ parts, Spells text.toList parts := by
          rintro ⟨parts, hspelled⟩
          rw [parse?_complete hspelled] at hparse
          cases hparse
        simp only [ofText, hparse, hnone, not_false_eq_true]
    | some parts =>
        have hspelled := parse?_sound hparse
        have hne : ofText text ≠ .error (.malformed text .notDecimal) := by
          intro hmalformed
          rw [ofText_of_spells hspelled] at hmalformed
          cases hoperands : parts.operands with
          | error cause =>
              rw [hoperands] at hmalformed
              cases hmalformed
          | ok x =>
              rw [hoperands] at hmalformed
              cases hmalformed
        exact iff_of_false hne fun hnone => hnone ⟨parts, hspelled⟩
  · intro parts hspelled
    obtain ⟨hwhole, hfraction⟩ := hspelled.isDigitRun
    have hoperands := exists_operands_iff hwhole hfraction
    refine ⟨?_, ?_, ?_⟩
    · rw [overflow_iff hspelled, hoperands, not_not]
    · simp only [ofText_eq_ok_iff hspelled, hoperands]
    · intro zeros other hother
      have hsame := operands_leadingZeros parts zeros
      refine ⟨fun x => ?_, fun cause => ?_⟩
      · rw [ofText_eq_ok_iff hother, ofText_eq_ok_iff hspelled, hsame]
      · rw [ofText_of_spells hother, ofText_of_spells hspelled, hsame]
        cases parts.operands <;> simp [shown, Except.mapError]

/-- Seven and a half is in range, with zeros in front of it too. -/
theorem ofText_verdict_seven :
    Spells "7.5".toList ⟨['7'], ['5'], none⟩ ∧
      Spells "007.5".toList ⟨['0', '0', '7'], ['5'], none⟩ ∧
      (∃ x, ofText "7.5" = .ok x) ∧ ∀ x, ofText "007.5" = .ok x ↔ ofText "7.5" = .ok x := by
  have hspelled : Spells "7.5".toList ⟨['7'], ['5'], none⟩ := parse?_eq_some_iff.mp (by decide)
  have hzeros : Spells "007.5".toList ⟨['0', '0', '7'], ['5'], none⟩ :=
    parse?_eq_some_iff.mp (by decide)
  obtain ⟨-, hok, hsame⟩ := (ofText_verdict "7.5").2 _ hspelled
  exact ⟨hspelled, hzeros, hok.mpr (by unfold OutOfRange; decide), (hsame 2 "007.5" hzeros).1⟩

/-- Zeros in front of an exponent do count once it has more than three digits. -/
theorem ofText_refuses_zeros_of_exponent :
    ∃ parts, Spells "1c0005".toList parts ∧ ¬parts.OutOfRange ∧
      ofText "1c0005" = .error (.overflow "1c0005" .exponent) ∧ ∃ x, ofText "1c005" = .ok x := by
  have hspelled : Spells "1c0005".toList ⟨['1'], [], some ['0', '0', '0', '5']⟩ :=
    parse?_eq_some_iff.mp (by decide)
  have hrange : ¬OutOfRange ⟨['1'], [], some ['0', '0', '0', '5']⟩ := by
    unfold OutOfRange
    decide
  exact ⟨_, hspelled, hrange, by decide, _, rfl⟩

end Operands

end PluralForms
