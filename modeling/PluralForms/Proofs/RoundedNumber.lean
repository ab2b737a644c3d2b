import PluralForms.Proofs.BinaryText
import PluralForms.Proofs.ShownNumber

/-!
# Numbers rounded to a count of places

A number that is to be shown with a given count of fraction digits is rounded once, from its exact
value: the digits it is rounded to for the comparison with the largest integer decide only whether
it is refused.  What they refuse begins a little below the first integer out of range, and with more
than eight places some numbers in range are refused with it.  An integer of too many digits is
refused without its name.
-/

namespace PluralForms

/-- The decimal of a number; for a binary number this is the one that it is written as. -/
def Number.decimal? : Number → Option Decimal
  | .integer n => some (.ofInt n)
  | .decimal x => some x
  | .binary x => Decimal.ofText? (Binary64.ofFloat x).text
  | _ => none

/-- The absolute value of a number, if it is finite. -/
def Number.magnitude? (value : Number) : Option ℚ :=
  value.decimal?.bind Decimal.magnitude?

theorem Number.magnitude?_integer (k : ℤ) :
    (Number.integer k).magnitude? = some (k.natAbs : ℚ) := by
  simp [magnitude?, decimal?, Decimal.ofInt, Decimal.magnitude?]

/-- An integer of too many digits to be named in a refusal. -/
def Number.Unwritable (value : Number) : Prop :=
  ∃ k : ℤ, value = .integer k ∧ 10 ^ maxTextDigits ≤ k.natAbs

namespace Number

theorem unwritable_integer_iff {k : ℤ} :
    (integer k).Unwritable ↔ 10 ^ maxTextDigits ≤ k.natAbs := by
  simp [Unwritable]

theorem refused_integer {k : ℤ} (h : k.natAbs < 10 ^ maxTextDigits)
    (error : String → OperandError) :
    (integer k).refused error = .operands (error (toString k)) := by
  have hdisplay : (integer k).display = .ok (toString k) := writeInteger_of_lt h
  rw [refused, hdisplay]

theorem refused_of_unwritable {value : Number} (h : value.Unwritable)
    (error : String → OperandError) : value.refused error = .digitLimit .writing := by
  obtain ⟨k, rfl, hle⟩ := h
  have hdisplay : (integer k).display = .error .writing := writeInteger_of_le hle
  rw [refused, hdisplay]

theorem refused_of_not_unwritable {value : Number} (h : ¬value.Unwritable)
    (error : String → OperandError) : ∃ input, value.refused error = .operands (error input) := by
  cases value with
  | integer k =>
      rw [unwritable_integer_iff, Nat.not_le] at h
      exact ⟨_, refused_integer h error⟩
  | text _ | decimal _ | binary _ | boolean _ | foreign _ => exact ⟨_, rfl⟩

end Number

namespace Operands

/-- From here on a number rounded to `comparisonDigits` digits is out of the range of integers: half
a unit of the last of these digits below the first integer out of range. -/
def integerBound : ℚ := 2 ^ 64 - 5 / 10 ^ 9

/-- From here on a number rounded to `comparisonDigits` digits is beyond what arithmetic can work
with. -/
def arithmeticBound : ℚ := 10 ^ 1000000 - 5 * 10 ^ 999971

theorem integerBound_eq : integerBound = ((2 ^ 64 * 10 ^ 8 : ℕ) - 1 / 2) * 10 ^ (-8 : ℤ) := by
  norm_num [integerBound]

theorem arithmeticBound_eq :
    arithmeticBound = ((10 ^ 28 : ℕ) - 1 / 2) * 10 ^ ((999971 + 1 : ℕ) : ℤ) := by
  have hfirst : (10 : ℚ) ^ 1000000 = 10 ^ 29 * 10 ^ 999971 := pow_add 10 29 999971
  rw [arithmeticBound, hfirst, zpow_natCast, pow_succ _ 999971]
  generalize (10 : ℚ) ^ 999971 = unit
  push_cast
  ring

theorem integerBound_lt_two_pow : integerBound < 2 ^ 64 := by
  norm_num [integerBound]

theorem two_pow_le_mul_ten_zpow (place : ℕ) :
    (2 : ℚ) ^ 64 ≤ ((10 ^ 28 : ℕ) - 1 / 2) * 10 ^ (place : ℤ) := by
  have hunit : (1 : ℚ) ≤ 10 ^ place := one_le_pow₀ (by norm_num)
  rw [zpow_natCast]
  calc
    (2 : ℚ) ^ 64 ≤ ((10 ^ 28 : ℕ) - 1 / 2) * 1 := by norm_num
    _ ≤ ((10 ^ 28 : ℕ) - 1 / 2) * 10 ^ place := mul_le_mul_of_nonneg_left hunit (by norm_num)

section

variable {value : Number} {q : ℚ} (hvalue : value.magnitude? = some q)

include hvalue

/-- What cannot be named is far out of range. -/
theorem integerBound_le_of_unwritable (h : value.Unwritable) : integerBound ≤ q := by
  obtain ⟨k, rfl, hle⟩ := h
  rw [Number.magnitude?_integer, Option.some.injEq] at hvalue
  have hlarge : 2 ^ 64 ≤ k.natAbs := maxInteger_lt_ten_pow_maxTextDigits.trans_le hle
  rw [← hvalue]
  exact integerBound_lt_two_pow.le.trans (by exact_mod_cast hlarge)

theorem not_unwritable_of_lt_integerBound (hq : q < integerBound) : ¬value.Unwritable :=
  fun hlong => (integerBound_le_of_unwritable hvalue hlong).not_gt hq

end

theorem two_pow_le_arithmeticBound : 2 ^ 64 ≤ arithmeticBound := by
  rw [arithmeticBound_eq]
  exact two_pow_le_mul_ten_zpow _

theorem ten_pow_lt_arithmeticBound {digits : ℕ} (h : digits ≤ 999971 + 1) :
    (10 : ℚ) ^ digits < arithmeticBound := by
  rw [arithmeticBound_eq, zpow_natCast]
  calc
    (10 : ℚ) ^ digits ≤ 10 ^ (999971 + 1) := pow_le_pow_right₀ (by norm_num) h
    _ < ((10 ^ 28 : ℕ) - 1 / 2) * 10 ^ (999971 + 1) :=
      lt_mul_of_one_lt_left (pow_pos (by norm_num) _) (by norm_num)

theorem integerBound_lt_arithmeticBound : integerBound < arithmeticBound :=
  integerBound_lt_two_pow.trans_le two_pow_le_arithmeticBound

/-! ## The comparison -/

theorem beyondArithmetic_iff (coefficient : ℕ) (exponent : ℤ) :
    beyondArithmetic (roundSignificant comparisonDigits coefficient exponent) = true ↔
      arithmeticBound ≤ coefficient * 10 ^ exponent := by
  have hthreshold := le_roundSignificant_iff 27 (10 ^ 28) (by decide) (by decide) (by decide)
    coefficient exponent (999971 + 1 : ℕ)
  rw [arithmeticBound_eq, ← hthreshold, beyondArithmetic, comparisonDigits]
  generalize roundSignificant 28 coefficient exponent = compared
  have hexponent : ((28 : ℕ) : ℤ) + (999971 + 1 : ℕ) = (maxDecimalExponent : ℤ) + 1 := by decide
  have hpow : ((10 ^ 28 : ℕ) : ℚ) * 10 ^ ((999971 + 1 : ℕ) : ℤ) =
      10 ^ ((maxDecimalExponent : ℤ) + 1) := by
    rw [Nat.cast_pow, Nat.cast_ofNat, ← zpow_natCast (10 : ℚ) 28,
      ← zpow_add₀ (by norm_num : (10 : ℚ) ≠ 0), hexponent]
  rw [hpow, Bool.and_eq_true, bne_iff_ne, decide_eq_true_eq]
  constructor
  · rintro ⟨hne, hlt⟩
    exact (lt_leadingExponent_iff hne _ _).mp hlt
  · intro hle
    have hne : compared.1 ≠ 0 := by
      intro hzero
      rw [hzero, Nat.cast_zero, zero_mul] at hle
      exact hle.not_gt (zpow_pos (by norm_num) _)
    exact ⟨hne, (lt_leadingExponent_iff hne _ _).mpr hle⟩

theorem reaches_compared_iff (coefficient : ℕ) (exponent : ℤ) :
    let compared := roundSignificant comparisonDigits coefficient exponent
    reaches (maxInteger + 1) compared.1 compared.2 = true ↔
      integerBound ≤ coefficient * 10 ^ exponent := by
  intro compared
  have hthreshold := le_roundSignificant_iff 27 (2 ^ 64 * 10 ^ 8) (by decide) (by decide)
    (by decide) coefficient exponent (-8)
  have hstep : ((2 ^ 64 * 10 ^ 8 : ℕ) : ℚ) * 10 ^ (-8 : ℤ) = (maxInteger + 1 : ℕ) := by
    norm_num [maxInteger]
  rw [integerBound_eq, ← hthreshold, hstep]
  exact reaches_iff (by decide) (by decide) _ _

/-! ## Rounding to places -/

section

variable (value : Number) (negative : Bool) {coefficient : ℕ} {exponent : ℤ}

theorem ofRounded_of_arithmeticBound_le (h : arithmeticBound ≤ coefficient * 10 ^ exponent)
    (places : ℕ) :
    ofRounded value (.finite negative coefficient exponent) places = .error .unroundable := by
  rw [ofRounded, if_pos ((beyondArithmetic_iff _ _).mpr h)]

theorem ofRounded_of_integerBound_le (hreach : coefficient * 10 ^ exponent < arithmeticBound)
    (h : integerBound ≤ coefficient * 10 ^ exponent) (places : ℕ) :
    ofRounded value (.finite negative coefficient exponent) places =
      .error (value.refused (.overflow · .integerPart)) := by
  rw [ofRounded, if_neg (mt (beyondArithmetic_iff _ _).mp hreach.not_ge),
    if_pos ((reaches_compared_iff _ _).mpr h)]

/-- Below the bound of integers the number is rounded once, and the working digits suffice. -/
theorem ofRounded_of_lt_integerBound (h : coefficient * 10 ^ exponent < integerBound)
    {places : ℕ} (hplaces : places ≤ maxFractionDigits) :
    ∃ units, IsNearestEven (coefficient * 10 ^ exponent * 10 ^ places) units ∧
      ofRounded value (.finite negative coefficient exponent) places =
        (ofDecimal (.finite negative units (-places))).mapError .operands := by
  obtain ⟨units, hnearest, hquantize⟩ := quantize?_spec workingDigits places coefficient exponent
  have hunits : units ≤ 2 ^ 64 * 10 ^ places := by
    apply hnearest.le_of_le_natCast
    push_cast
    gcongr
    exact (h.trans integerBound_lt_two_pow).le
  have hdigits : digitCount units ≤ workingDigits := by
    refine (digitCount_le_iff (by decide)).mpr ?_
    calc
      units ≤ 2 ^ 64 * 10 ^ places := hunits
      _ ≤ 2 ^ 64 * 10 ^ 18 := Nat.mul_le_mul_left _ (Nat.pow_le_pow_right (by omega) hplaces)
      _ < 10 ^ workingDigits := by decide
  have hreach := (h.trans integerBound_lt_arithmeticBound).not_ge
  rw [if_pos hdigits] at hquantize
  refine ⟨units, hnearest, ?_⟩
  rw [ofRounded, if_neg (mt (beyondArithmetic_iff _ _).mp hreach),
    if_neg (mt (reaches_compared_iff _ _).mp h.not_ge), hquantize]

end

/-! ## Numbers of all sorts -/

section

variable {value : Number} {q : ℚ} {places : ℕ}

theorem ofPlaces_eq (h : value.magnitude? = some q) (hplaces : places ≤ maxFractionDigits) :
    ∃ negative, ∃ coefficient : ℕ, ∃ exponent : ℤ, q = coefficient * 10 ^ exponent ∧
      ofPlaces value places =
        ofRounded value (.finite negative coefficient exponent) places := by
  have hfinite : ∀ x : Decimal, x.magnitude? = some q →
      ∃ negative, ∃ coefficient : ℕ, ∃ exponent : ℤ, q = coefficient * 10 ^ exponent ∧
        ofRounded value x places =
          ofRounded value (.finite negative coefficient exponent) places := by
    intro x hx
    cases x with
    | finite negative coefficient exponent =>
        exact ⟨negative, coefficient, exponent, (Option.some.inj hx).symm, rfl⟩
    | infinite _ => cases hx
    | nan _ _ _ => cases hx
  have hnonneg : ¬(places : ℤ) < 0 := by omega
  have hfew : ¬(maxFractionDigits : ℤ) < places := by omega
  simp only [ofPlaces, if_neg hnonneg, if_neg hfew, Int.toNat_natCast]
  cases value with
  | integer n => exact hfinite _ h
  | decimal x => exact hfinite _ h
  | binary x => exact hfinite _ ((Binary64.magnitude?_ofText? _).symm.trans h)
  | text _ => cases h
  | boolean _ => cases h
  | foreign _ => cases h

/-- What becomes of the number `q`, handed in as `value`, that is to be shown with `places` fraction
digits. -/
inductive Rounds (value : Number) (q : ℚ) (places : ℕ) :
    Except ConversionError Operands → Prop where
  /-- The nearest number with these places is shown. -/
  | nearest {units x} (hq : q < integerBound) (hnearest : IsNearestEven (q * 10 ^ places) units)
      (hfits : FixedPoint.Fits ⟨units, places⟩) (hx : x.Coherent) (hn : x.n = ⟨units, places⟩)
      (hc : x.c = 0) : Rounds value q places (.ok x)
  /-- The nearest number is out of range. -/
  | carried {units input} (hq : q < integerBound)
      (hnearest : IsNearestEven (q * 10 ^ places) units)
      (hfits : ¬FixedPoint.Fits ⟨units, places⟩) :
      Rounds value q places (.error (.operands (.overflow input .integerPart)))
  /-- The comparison finds the number out of range. -/
  | refused {input} (hlow : integerBound ≤ q) (hhigh : q < arithmeticBound)
      (hnamed : ¬value.Unwritable) :
      Rounds value q places (.error (.operands (.overflow input .integerPart)))
  /-- It does so, but the refusal cannot name the number. -/
  | unnamed (hlow : integerBound ≤ q) (hhigh : q < arithmeticBound) (hlong : value.Unwritable) :
      Rounds value q places (.error (.digitLimit .writing))
  | unroundable (hq : arithmeticBound ≤ q) : Rounds value q places (.error .unroundable)

theorem ofPlaces_rounds (hvalue : value.magnitude? = some q)
    (hplaces : places ≤ maxFractionDigits) : Rounds value q places (ofPlaces value places) := by
  obtain ⟨negative, coefficient, exponent, rfl, heq⟩ := ofPlaces_eq hvalue hplaces
  rw [heq]
  rcases lt_or_ge (coefficient * 10 ^ exponent : ℚ) integerBound with hq | hlow
  · obtain ⟨units, hnearest, hrounded⟩ := ofRounded_of_lt_integerBound value negative hq hplaces
    have hshows := ofFinite_shows units (-places)
    rw [neg_neg, Int.toNat_natCast, Int.toNat_neg_natCast, Nat.pow_zero, Nat.mul_one] at hshows
    rw [hrounded, ofDecimal]
    generalize ofFinite units (-places) = outcome at hshows
    cases hshows with
    | inRange hfits hx hn hc => exact .nearest hq hnearest hfits hx hn hc
    | outOfRange hfits hcause =>
        rw [hcause hplaces]
        exact .carried hq hnearest hfits
  · rcases lt_or_ge (coefficient * 10 ^ exponent : ℚ) arithmeticBound with hhigh | hq
    · rw [ofRounded_of_integerBound_le value negative hhigh hlow]
      by_cases hlong : value.Unwritable
      · rw [Number.refused_of_unwritable hlong]
        exact .unnamed hlow hhigh hlong
      · obtain ⟨input, hnamed⟩ := Number.refused_of_not_unwritable hlong (.overflow · .integerPart)
        rw [hnamed]
        exact .refused hlow hhigh hlong
    · rw [ofRounded_of_arithmeticBound_le value negative hq]
      exact .unroundable hq

section

variable {outcome : Except ConversionError Operands} (h : Rounds value q places outcome)

include h

/-- Below the bound of arithmetic the numbers that cannot be named are refused for that, and no
others. -/
theorem Rounds.eq_digitLimit_iff (hvalue : value.magnitude? = some q)
    (hreach : q < arithmeticBound) :
    outcome = .error (.digitLimit .writing) ↔ value.Unwritable := by
  cases h with
  | nearest hq _ _ _ _ _ => exact iff_of_false nofun (not_unwritable_of_lt_integerBound hvalue hq)
  | carried hq _ _ => exact iff_of_false nofun (not_unwritable_of_lt_integerBound hvalue hq)
  | refused _ _ hnamed => exact iff_of_false nofun hnamed
  | unnamed _ _ hlong => exact iff_of_true rfl hlong
  | unroundable hq => exact absurd hreach hq.not_gt

theorem Rounds.eq_unroundable (hbeyond : arithmeticBound ≤ q) : outcome = .error .unroundable := by
  have hlow := integerBound_lt_arithmeticBound.trans_le hbeyond
  cases h with
  | nearest hq _ _ _ _ _ => exact absurd hlow hq.not_gt
  | carried hq _ _ => exact absurd hlow hq.not_gt
  | refused _ hhigh _ => exact absurd hbeyond hhigh.not_ge
  | unnamed _ hhigh _ => exact absurd hbeyond hhigh.not_ge
  | unroundable _ => rfl

end

theorem two_pow_sub_one_lt_integerBound : (2 : ℚ) ^ 64 - 1 < integerBound := by
  norm_num [integerBound]

theorem fits_iff {units : ℕ} (hplaces : places ≤ maxFractionDigits) :
    FixedPoint.Fits ⟨units, places⟩ ↔ units < 2 ^ 64 * 10 ^ places := by
  rw [← Nat.div_lt_iff_lt_mul (Nat.pow_pos (by decide))]
  exact ⟨fun h => Nat.lt_succ_of_le h.1, fun h => ⟨Nat.le_of_lt_succ h, hplaces⟩⟩

/-- The number is rounded once, from its exact value; if it is refused, then for its integer part,
or because it is an integer that a refusal cannot even name. -/
theorem ofPlaces_rounds_once (hvalue : value.magnitude? = some q) (hplaces : places ≤ 18) :
    (∀ x, ofPlaces value places = .ok x →
      x.v = places ∧ ∃ units, IsNearestEven (q * 10 ^ places) units ∧ x.n = ⟨units, places⟩) ∧
    (∀ e, ofPlaces value places = .error e →
      (¬value.Unwritable ∧ ∃ input, e = .operands (.overflow input .integerPart)) ∨
        (value.Unwritable ∧ e = .digitLimit .writing) ∨
        (arithmeticBound ≤ q ∧ e = .unroundable)) ∧
    (value.Unwritable → q < arithmeticBound →
      ofPlaces value places = .error (.digitLimit .writing)) ∧
    (q ≤ 2 ^ 64 - 1 → ∃ x, ofPlaces value places = .ok x) := by
  have hrounds := ofPlaces_rounds hvalue hplaces
  generalize ofPlaces value places = outcome at hrounds ⊢
  refine ⟨?_, ?_, fun hlong hreach => (hrounds.eq_digitLimit_iff hvalue hreach).mpr hlong, ?_⟩
  · rintro x rfl
    cases hrounds with
    | @nearest units _ hq hnearest hfits hx hn hc =>
        exact ⟨by rw [← hx.places_n, hn], units, hnearest, hn⟩
  · rintro e rfl
    cases hrounds with
    | carried hq hnearest hfits =>
        exact .inl ⟨not_unwritable_of_lt_integerBound hvalue hq, _, rfl⟩
    | refused hlow hhigh hnamed => exact .inl ⟨hnamed, _, rfl⟩
    | unnamed hlow hhigh hlong => exact .inr (.inl ⟨hlong, rfl⟩)
    | unroundable hq => exact .inr (.inr ⟨hq, rfl⟩)
  · intro hle
    have hlt := hle.trans_lt two_pow_sub_one_lt_integerBound
    cases hrounds with
    | nearest hq hnearest hfits hx hn hc => exact ⟨_, rfl⟩
    | @carried units _ hq hnearest hfits =>
        -- What is not above a whole number is not rounded above it.
        have hunits : units ≤ (2 ^ 64 - 1) * 10 ^ places := by
          apply hnearest.le_of_le_natCast
          push_cast
          gcongr
          norm_num at hle ⊢
          exact hle
        have hlt : units < 2 ^ 64 * 10 ^ places :=
          hunits.trans_lt (Nat.mul_lt_mul_of_pos_right (by decide) (Nat.pow_pos (by decide)))
        exact absurd ((fits_iff hplaces).mpr hlt) hfits
    | refused hlow hhigh hnamed => exact absurd hlt hlow.not_gt
    | unnamed hlow hhigh hlong => exact absurd hlt hlow.not_gt
    | unroundable hq => exact absurd (hlt.trans integerBound_lt_arithmeticBound) hq.not_gt

/-- A tie of two places is rounded to the even one, 1.00. -/
theorem ofPlaces_rounds_once_tie :
    (Number.decimal (.finite true 1005 (-3))).magnitude? = some (((1005 : ℕ) : ℚ) * 10 ^ (-3 : ℤ)) ∧
      ∃ x, ofPlaces (.decimal (.finite true 1005 (-3))) (2 : ℕ) = .ok x ∧ x.v = 2 ∧
        x.n = ⟨100, 2⟩ := by
  obtain ⟨hrounded, -, -, hshown⟩ :=
    @ofPlaces_rounds_once (.decimal (.finite true 1005 (-3))) _ 2 rfl (by decide)
  obtain ⟨x, hx⟩ := hshown (by norm_num)
  obtain ⟨hv, units, hunits, hn⟩ := hrounded x hx
  have htie : IsNearestEven (((1005 : ℕ) : ℚ) * 10 ^ (-3 : ℤ) * 10 ^ 2) 100 :=
    ⟨by norm_num [abs_le], fun _ => by decide⟩
  exact ⟨rfl, x, hx, hv, by rw [hn, hunits.unique htie]⟩

theorem ofPlaces_integer_pow {digits : ℕ} (hlong : maxTextDigits ≤ digits)
    (hreach : digits ≤ 999971 + 1) (hplaces : places ≤ maxFractionDigits) :
    ofPlaces (.integer (10 ^ digits)) places = .error (.digitLimit .writing) := by
  have habs : ((10 : ℤ) ^ digits).natAbs = 10 ^ digits := Int.natAbs_pow 10 digits
  have hvalue := Number.magnitude?_integer (10 ^ digits)
  rw [habs, Nat.cast_pow, Nat.cast_ofNat] at hvalue
  have hunwritable : (Number.integer (10 ^ digits)).Unwritable := by
    rw [Number.unwritable_integer_iff, habs]
    exact Nat.pow_le_pow_right (by decide) hlong
  have hrounds := ofPlaces_rounds hvalue hplaces
  exact (hrounds.eq_digitLimit_iff hvalue (ten_pow_lt_arithmeticBound hreach)).mpr hunwritable

/-- An integer of five thousand digits and one is within arithmetic, but no refusal can name it. -/
theorem ofPlaces_ten_pow_unnamed :
    (10 : ℚ) ^ 5000 < arithmeticBound ∧
      ofPlaces (.integer (10 ^ 5000)) (0 : ℕ) = .error (.digitLimit .writing) :=
  ⟨ten_pow_lt_arithmeticBound (by decide),
    ofPlaces_integer_pow (by decide) (by decide) (Nat.zero_le _)⟩

/-! ## What is refused -/

/-- With at most eight places the comparison finds nothing out of range but what would be rounded
out of range. -/
theorem two_pow_le_of_integerBound_le {units : ℕ} (hunits : IsNearestEven (q * 10 ^ places) units)
    (hfew : places ≤ 8) (hq : integerBound ≤ q) : 2 ^ 64 * 10 ^ places ≤ units := by
  have heven : Even (2 ^ 64 * 10 ^ places) := (by decide : Even (2 ^ 64)).mul_right _
  have hpow : (10 : ℚ) ^ places ≤ 10 ^ 8 := pow_le_pow_right₀ (by norm_num) hfew
  have hpos : (0 : ℚ) < 10 ^ places := by positivity
  have hscaled : integerBound * 10 ^ places ≤ q * 10 ^ places :=
    mul_le_mul_of_nonneg_right hq hpos.le
  rw [hunits.le_iff_of_even heven]
  rw [integerBound, sub_mul] at hscaled
  push_cast
  linarith

theorem value_written_out (coefficient : ℕ) (exponent : ℤ) :
    FixedPoint.value ⟨coefficient * 10 ^ exponent.toNat, (-exponent).toNat⟩ =
      coefficient * 10 ^ exponent := by
  rw [FixedPoint.value]
  rcases Int.eq_nat_or_neg exponent with ⟨m, rfl | rfl⟩
  · rw [Int.toNat_natCast, Int.toNat_neg_natCast, pow_zero, div_one, zpow_natCast]
    push_cast
    rfl
  · rw [neg_neg, Int.toNat_natCast, Int.toNat_neg_natCast, pow_zero, mul_one, zpow_neg,
      zpow_natCast, div_eq_mul_inv]

theorem value_of_ofDecimal {d : Decimal} {x : Operands} (hq : d.magnitude? = some q)
    (h : ofDecimal d = .ok x) : x.n.Fits ∧ x.n.value = q ∧ x.c = 0 := by
  cases d with
  | infinite _ => cases h
  | nan _ _ _ => cases h
  | finite negative coefficient exponent =>
      have hq := Option.some.inj hq
      have hshows := ofFinite_shows coefficient exponent
      rw [mapError_eq_ok_iff.mp h] at hshows
      cases hshows with
      | inRange hfits hx hn hc =>
          rw [hn, value_written_out]
          exact ⟨hfits, hq, hc⟩

/-- What a decimal shows of itself is shown again with as many places, unless the comparison finds
it out of range. -/
theorem ofPlaces_of_ofDecimal {d : Decimal} {x : Operands} (hq : d.magnitude? = some q)
    (h : ofDecimal d = .ok x) : ofPlaces (.decimal d) x.v = .ok x ↔ q < integerBound := by
  obtain ⟨hfits, hvalue, hc⟩ := value_of_ofDecimal hq h
  have hx := ofDecimal_coherent h
  have hunits : q * 10 ^ x.v = x.n.units := by
    rw [← hvalue, FixedPoint.value, hx.places_n, div_mul_cancel₀ _ (by positivity)]
  have hn : x.n = ⟨x.n.units, x.v⟩ := by rw [← hx.places_n]
  have hmagnitude : (Number.decimal d).magnitude? = some q := hq
  have hrounds := ofPlaces_rounds hmagnitude hx.v_le
  have hno : ∀ e, (.error e : Except ConversionError Operands) ≠ .ok x := by simp
  generalize ofPlaces (.decimal d) x.v = outcome at hrounds ⊢
  cases hrounds with
  | @nearest units y hlt hnearest _ hy hny hcy =>
      rw [hunits] at hnearest
      have hsame : y = x := by
        refine hy.eq_of_n_eq hx ?_ (hcy.trans hc.symm)
        rw [hny, hn, hnearest.unique (.natCast x.n.units)]
      rw [hsame]
      exact iff_of_true rfl hlt
  | @carried units _ hlt hnearest hfits' =>
      rw [hunits] at hnearest
      rw [hnearest.unique (.natCast x.n.units), ← hn] at hfits'
      exact absurd hfits hfits'
  | refused hlow hhigh hnamed => exact iff_of_false (hno _) hlow.not_gt
  | unnamed hlow hhigh hlong => exact iff_of_false (hno _) hlow.not_gt
  | unroundable hlow =>
      exact iff_of_false (hno _) (integerBound_lt_arithmeticBound.trans_le hlow).not_gt

theorem Rounds.exists_overflow_iff {outcome : Except ConversionError Operands} {units : ℕ}
    (h : Rounds value q places outcome) (hvalue : value.magnitude? = some q)
    (hreach : q < arithmeticBound) (hunits : IsNearestEven (q * 10 ^ places) units) :
    (∃ input cause, outcome = .error (.operands (.overflow input cause))) ↔
      (¬FixedPoint.Fits ⟨units, places⟩ ∨ integerBound ≤ q) ∧ ¬value.Unwritable := by
  cases h with
  | nearest hq hnearest hfits hx hn hc =>
      rw [hnearest.unique hunits] at hfits
      refine iff_of_false nofun ?_
      rintro ⟨hlarge | hlow, -⟩
      · exact hlarge hfits
      · exact hlow.not_gt hq
  | carried hq hnearest hfits =>
      rw [hnearest.unique hunits] at hfits
      exact iff_of_true ⟨_, _, rfl⟩ ⟨.inl hfits, not_unwritable_of_lt_integerBound hvalue hq⟩
  | refused hlow hhigh hnamed => exact iff_of_true ⟨_, _, rfl⟩ ⟨.inr hlow, hnamed⟩
  | unnamed hlow hhigh hlong => exact iff_of_false nofun fun hlarge => hlarge.2 hlong
  | unroundable hq => exact absurd hreach hq.not_gt

/-- A number is refused as too large just if rounding takes its integer part out of range, or if it
reaches the bound of the comparison, which with more than eight places some numbers in range do; an
integer of too many digits is refused for these.  Below that bound a decimal is shown with its own
places as it shows itself. -/
theorem ofPlaces_overflow_iff {units : ℕ} (hvalue : value.magnitude? = some q)
    (hreach : q < arithmeticBound) (hplaces : places ≤ 18)
    (hunits : IsNearestEven (q * 10 ^ places) units) :
    ((∃ input cause, ofPlaces value places = .error (.operands (.overflow input cause))) ↔
      (2 ^ 64 - 1 < units / 10 ^ places ∨ integerBound ≤ q) ∧ ¬value.Unwritable) ∧
    (ofPlaces value places = .error (.digitLimit .writing) ↔ value.Unwritable) ∧
    (places ≤ 8 → integerBound ≤ q → 2 ^ 64 - 1 < units / 10 ^ places) ∧
    ∀ d x, value = .decimal d → ofDecimal d = .ok x → x.v = places →
      (ofPlaces value places = .ok x ↔ q < integerBound) := by
  have hlarge : 2 ^ 64 - 1 < units / 10 ^ places ↔ ¬FixedPoint.Fits ⟨units, places⟩ := by
    rw [fits_iff hplaces, Nat.not_lt, ← Nat.le_div_iff_mul_le (Nat.pow_pos (by decide))]
    exact Iff.rfl
  have hrounds := ofPlaces_rounds hvalue hplaces
  refine ⟨?_, hrounds.eq_digitLimit_iff hvalue hreach, ?_, ?_⟩
  · rw [hlarge]
    exact hrounds.exists_overflow_iff hvalue hreach hunits
  · intro hfew hq
    have hle := two_pow_le_of_integerBound_le hunits hfew hq
    exact (Nat.le_div_iff_mul_le (Nat.pow_pos (by decide))).mpr hle
  · intro d x hd hshown hx
    subst hd hx
    exact ofPlaces_of_ofDecimal hvalue hshown

end

/-- The largest integer in range and a half are rounded out of range; ninety-five hundredths are
shown again with their two places. -/
theorem ofPlaces_overflow_iff_half :
    let large : Decimal := .finite false 184467440737095516155 (-1)
    let small : Decimal := .finite false 95 (-2)
    (∃ input cause, ofPlaces (.decimal large) (0 : ℕ) =
        .error (.operands (.overflow input cause))) ∧
      ∃ x, ofDecimal small = .ok x ∧ x.v = 2 ∧ ofPlaces (.decimal small) (2 : ℕ) = .ok x := by
  intro large small
  have hbounds : (95 : ℕ) * (10 : ℚ) ^ (-2 : ℤ) < arithmeticBound ∧
      (184467440737095516155 : ℕ) * (10 : ℚ) ^ (-1 : ℤ) < arithmeticBound :=
    ⟨lt_of_lt_of_le (by norm_num) two_pow_le_arithmeticBound,
      lt_of_lt_of_le (by norm_num) two_pow_le_arithmeticBound⟩
  have hlarge : (Number.decimal large).magnitude? =
      some ((184467440737095516155 : ℕ) * (10 : ℚ) ^ (-1 : ℤ)) := rfl
  have hsmall : (Number.decimal small).magnitude? = some ((95 : ℕ) * (10 : ℚ) ^ (-2 : ℤ)) := rfl
  have htie : IsNearestEven ((184467440737095516155 : ℕ) * (10 : ℚ) ^ (-1 : ℤ) * 10 ^ 0) (2 ^ 64) :=
    ⟨by norm_num [abs_le], fun _ => by decide⟩
  have hexact : IsNearestEven ((95 : ℕ) * (10 : ℚ) ^ (-2 : ℤ) * 10 ^ 2) 95 :=
    ⟨by norm_num, by norm_num⟩
  obtain ⟨hrefused, -⟩ := ofPlaces_overflow_iff hlarge hbounds.2 (Nat.zero_le 18) htie
  obtain ⟨-, -, -, hshown⟩ := ofPlaces_overflow_iff hsmall hbounds.1 (by decide) hexact
  constructor
  · exact hrefused.mpr ⟨.inl (by decide), nofun⟩
  · exact ⟨_, rfl, rfl, (hshown _ _ rfl rfl rfl).mpr (by norm_num [integerBound])⟩

/-- Half a unit of the eighth place below the first integer out of range: this decimal shows itself,
and with its own places there is nothing to round, but it is refused. -/
theorem ofPlaces_refuses_in_range :
    let d : Decimal := .finite false 18446744073709551615999999995000000000 (-18)
    (d.magnitude? = some integerBound ∧ ∃ x, ofDecimal d = .ok x ∧ x.v = 18 ∧ x.i = 2 ^ 64 - 1) ∧
      ofPlaces (.decimal d) 18 = .error (.operands (.overflow d.text .integerPart)) := by
  refine ⟨⟨?_, _, rfl, rfl, rfl⟩, ?_⟩
  · norm_num [Decimal.magnitude?, integerBound]
  · decide +kernel

end Operands

end PluralForms
