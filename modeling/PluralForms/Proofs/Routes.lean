import PluralForms.Proofs.RoundedNumber

/-!
# Ways to show one number

A number with all its digits can be handed in as text, as a decimal and, if it is whole, as an
integer, or it can be rounded to no places.  All of them give the same operands, or all refuse the
number as too large.  The ways part where digits are too many to be converted, behind zeros in front
of a text or in an integer to be named, and where a number is beyond arithmetic.
-/

namespace PluralForms

open Text DecimalText

/-! ## Plain text -/

/-- The text of `coefficient · 10 ^ exponent` without an exponent: the digits of the coefficient
with `exponent` zeros behind them, or with `-exponent` of the digits behind a point.  Zeros may stand
in front. -/
inductive DecimalText.WritesOut : List Char → ℕ → ℤ → Prop where
  | whole {sign digits} (hsign : SignText sign) (hne : digits ≠ []) (hrun : IsDigitRun digits)
      (zeros : ℕ) :
      WritesOut (sign ++ (digits ++ List.replicate zeros '0')) (digitsValue digits) zeros
  | pointed {sign whole fraction} (hsign : SignText sign) (hwholeNe : whole ≠ [])
      (hwhole : IsDigitRun whole) (hne : fraction ≠ []) (hfraction : IsDigitRun fraction) :
      WritesOut (sign ++ (whole ++ '.' :: fraction)) (digitsValue (whole ++ fraction))
        (-fraction.length)

namespace DecimalText

/-- The digits of a text before its point. -/
def wholeDigits (chars : List Char) : List Char :=
  (unsigned chars).takeWhile isDigit

/-- So many zeros stand in front of a small number that its digits are too many to be read. -/
def Overlong (chars : List Char) : Prop :=
  maxTextDigits < (wholeDigits chars).length ∧ digitsValue (wholeDigits chars) < 10 ^ 20

theorem wholeDigits_append {sign whole rest : List Char} (hsign : SignText sign) (hne : whole ≠ [])
    (hrun : IsDigitRun whole) (hrest : Ahead (fun c => isDigit c = false) rest) :
    wholeDigits (sign ++ (whole ++ rest)) = whole := by
  obtain ⟨digit, digits, rfl⟩ := List.exists_cons_of_ne_nil hne
  rw [wholeDigits, List.cons_append, unsigned_complete hsign (hrun digit List.mem_cons_self),
    ← List.cons_append]
  exact takeWhile_run hrun hrest

theorem wholeDigits_of_parse? {chars : List Char} {parts : DecimalText}
    (h : parse? chars = some parts) : wholeDigits chars = parts.whole := by
  simp only [parse?, Option.bind_eq_bind, Option.bind_eq_some_iff] at h
  obtain ⟨_, -, _, -, _, -, _, -, htext⟩ := h
  cases htext
  rfl

theorem eq_zero_of_overlong {coefficient zeros : ℕ}
    (hlong : maxTextDigits < digitCount coefficient + zeros)
    (hsmall : coefficient * 10 ^ zeros < 10 ^ 20) : coefficient = 0 ∧ maxTextDigits ≤ zeros := by
  have hzero : coefficient = 0 := by
    by_contra hne
    have hdigits : 20 < digitCount coefficient + zeros := lt_trans (by decide) hlong
    exact Nat.not_le.mpr hsmall (Operands.ten_pow_le_of_lt_digits hne hdigits)
  subst hzero
  have hone : digitCount 0 = 1 := rfl
  omega

/-- No zeros stand in front of a number that has so many digits before its point. -/
theorem not_overlong_split (y : FixedPoint) :
    ¬(maxTextDigits < y.split.1.length ∧ digitsValue y.split.1 < 10 ^ 20) := by
  rintro ⟨hlong, hsmall⟩
  obtain ⟨-, hplaces⟩ := y.length_split
  have hfraction := digitsValue_lt (Operands.isDigitRun_split y).2
  have hunits := y.digitsValue_split
  rw [digitsValue_append, hplaces] at hunits
  rw [hplaces] at hfraction
  have hdigits : maxTextDigits + y.places < digitCount y.units := by
    have hmany : 1 < y.split.1.length := lt_trans (by decide) hlong
    simp only [FixedPoint.split, List.splitAt_eq, List.length_take, List.length_append,
      List.length_replicate] at hlong hmany
    rw [digitCount]
    omega
  have hlow : 10 ^ 20 * 10 ^ y.places ≤ y.units := by
    have hne : y.units ≠ 0 := by
      intro hzero
      rw [hzero] at hdigits
      have hone : digitCount 0 = 1 := rfl
      have hpos : 1 ≤ maxTextDigits := by decide
      omega
    have htwenty : 20 ≤ maxTextDigits := by decide
    rw [← pow_add]
    exact ten_pow_le_of_lt_digitCount hne (by omega)
  have hhigh : (digitsValue y.split.1 + 1) * 10 ^ y.places ≤ 10 ^ 20 * 10 ^ y.places :=
    Nat.mul_le_mul_right _ hsmall
  rw [add_mul, one_mul] at hhigh
  omega

/-- Every decimal has a text; that of a zero may be overlong, but no other. -/
theorem exists_writesOut (coefficient : ℕ) (exponent : ℤ) :
    ∃ chars, WritesOut chars coefficient exponent ∧
      (Overlong chars → coefficient = 0 ∧ maxTextDigits ≤ exponent) := by
  rcases lt_or_ge exponent 0 with hexponent | hexponent
  · let y : FixedPoint := ⟨coefficient, (-exponent).toNat⟩
    obtain ⟨hwhole, hfraction⟩ := y.length_split
    have hplaces : 0 < y.places := by
      simp only [y]
      omega
    have hne := List.ne_nil_of_length_pos hwhole
    have htext := WritesOut.pointed .absent hne (Operands.isDigitRun_split y).1
      (List.ne_nil_of_length_pos (hfraction ▸ hplaces)) (Operands.isDigitRun_split y).2
    rw [y.digitsValue_split, hfraction, Int.toNat_of_nonneg (by omega), neg_neg] at htext
    refine ⟨_, htext, fun hlong => ?_⟩
    rw [Overlong, wholeDigits_append .absent hne (Operands.isDigitRun_split y).1
      (ahead_cons.mpr (by decide))] at hlong
    exact absurd hlong (not_overlong_split y)
  · have hne : Nat.toDigits 10 coefficient ≠ [] :=
      List.ne_nil_of_length_pos Nat.length_toDigits_pos
    have hrun := isDigitRun_toDigits coefficient
    have htext := WritesOut.whole .absent hne hrun exponent.toNat
    rw [digitsValue_toDigits, Int.toNat_of_nonneg hexponent] at htext
    refine ⟨_, htext, fun hlong => ?_⟩
    have hwhole := wholeDigits_append .absent (List.append_ne_nil_of_left_ne_nil hne _)
      (hrun.append (isDigitRun_zeros exponent.toNat)) (ahead_nil _)
    rw [List.append_nil] at hwhole
    rw [Overlong, hwhole, List.length_append, List.length_replicate, digitsValue_append,
      digitsValue_zeros, digitsValue_toDigits, List.length_replicate, Nat.add_zero] at hlong
    obtain ⟨hzero, hzeros⟩ := eq_zero_of_overlong hlong.1 hlong.2
    exact ⟨hzero, by omega⟩

theorem WritesOut.exists_spells {chars : List Char} {coefficient : ℕ} {exponent : ℤ}
    (h : WritesOut chars coefficient exponent) :
    ∃ whole fraction, Spells chars ⟨whole, fraction, none⟩ ∧
      Operands.Shows ⟨coefficient * 10 ^ exponent.toNat, (-exponent).toNat⟩
        (Operands.ofDigits whole fraction 0) := by
  cases h with
  | @whole sign digits hsign hne hrun zeros =>
      have hspells := Spells.intro hsign (List.append_ne_nil_of_left_ne_nil hne _)
        (hrun.append (isDigitRun_zeros zeros)) .absent .absent
      rw [List.append_nil, List.append_nil] at hspells
      refine ⟨_, _, hspells, ?_⟩
      have hshows := Operands.ofDigits_shows (digits ++ List.replicate zeros '0') isDigitRun_nil
      rw [List.append_nil, digitsValue_append, digitsValue_zeros, List.length_replicate,
        Nat.add_zero] at hshows
      rw [Int.toNat_natCast, Int.toNat_neg_natCast]
      exact hshows
  | @pointed sign whole fraction hsign hwholeNe hwhole hne hfraction =>
      have hspells := Spells.intro hsign hwholeNe hwhole
        (.present (beq_self_eq_true '.') hne hfraction) .absent
      rw [List.append_nil] at hspells
      refine ⟨_, _, hspells, ?_⟩
      rw [neg_neg, Int.toNat_natCast, Int.toNat_neg_natCast, Nat.pow_zero, Nat.mul_one]
      exact Operands.ofDigits_shows whole hfraction

theorem unread?_of_plain {whole fraction : List Char} (hrun : IsDigitRun whole) :
    unread? ⟨whole, fraction, none⟩ =
      if maxTextDigits < whole.length ∧ digitsValue whole < 10 ^ 20 then
        some (.reading whole.length)
      else none := by
  have hkept := length_withoutLeadingZeros_le_iff hrun (by decide : 0 < digitCount maxInteger)
  have htwenty : 10 ^ digitCount maxInteger = 10 ^ 20 := by decide
  rw [htwenty] at hkept
  simp only [unread?, compact, Operands.movePoint_zero, hkept, and_comm]

section

variable {text : String} {whole fraction : List Char}
  (h : Spells text.toList ⟨whole, fraction, none⟩)

include h

theorem ofString_of_overlong (hlong : Overlong text.toList) :
    Operands.ofString text =
      .error (.digitLimit (.reading (wholeDigits text.toList).length)) := by
  have hparse := parse?_complete h
  have hwhole : wholeDigits text.toList = whole := wholeDigits_of_parse? hparse
  rw [Overlong, hwhole] at hlong
  simp only [Operands.ofString, hparse, Option.bind_some, unread?_of_plain h.isDigitRun.1,
    if_pos hlong, hwhole]

theorem ofString_of_not_overlong (hshort : ¬Overlong text.toList) :
    Operands.ofString text =
      (Operands.shown text (Operands.ofDigits whole fraction 0)).mapError .operands := by
  have hparse := parse?_complete h
  have hwhole : wholeDigits text.toList = whole := wholeDigits_of_parse? hparse
  rw [Overlong, hwhole] at hshort
  simp only [Operands.ofString, hparse, Option.bind_some, unread?_of_plain h.isDigitRun.1,
    if_neg hshort, ofText_of_spells h]
  rfl

end

end DecimalText

namespace Operands

theorem spells_toString (k : ℤ) :
    Spells (toString k).toList ⟨Nat.toDigits 10 k.natAbs, [], none⟩ := by
  have hspells : ∀ {sign : List Char} (n : ℕ), SignText sign →
      Spells (sign ++ Nat.toDigits 10 n) ⟨Nat.toDigits 10 n, [], none⟩ := by
    intro sign n hsign
    have htext := Spells.intro hsign (List.ne_nil_of_length_pos Nat.length_toDigits_pos)
      (isDigitRun_toDigits n) .absent .absent
    rw [List.append_nil, List.append_nil] at htext
    exact htext
  cases k with
  | ofNat n =>
      have htext : (toString (Int.ofNat n)).toList = [] ++ Nat.toDigits 10 n :=
        Nat.toList_repr
      rw [htext]
      exact hspells n .absent
  | negSucc n =>
      have htext : (toString (Int.negSucc n)).toList = ['-'] ++ Nat.toDigits 10 (n + 1) := by
        rw [← Nat.toList_repr]
        exact String.toList_append
      rw [htext]
      exact hspells (n + 1) .minus

theorem not_overlong_toString {k : ℤ} (h : k.natAbs < 10 ^ maxTextDigits) :
    ¬Overlong (toString k).toList := by
  rintro ⟨hlong, -⟩
  rw [wholeDigits_of_parse? (parse?_complete (spells_toString k))] at hlong
  exact Nat.not_le.mpr hlong ((digitCount_le_iff (by decide)).mpr h)

/-! ## Outcomes -/

/-- An outcome is told by the operands, if it gives any; without them the number was too large. -/
inductive Gives : Option Operands → Except ConversionError Operands → Prop where
  | operands (x : Operands) : Gives (some x) (.ok x)
  | overflow (input : String) (cause : Overflow) :
      Gives none (.error (.operands (.overflow input cause)))

theorem gives_shown (input : String) (outcome : Except Overflow Operands) :
    Gives outcome.toOption ((shown input outcome).mapError .operands) := by
  cases outcome with
  | ok x => exact .operands x
  | error cause => exact .overflow input cause

theorem Gives.eq_ok {result : Option Operands} {a b : Except ConversionError Operands}
    {x : Operands} (ha : Gives result a) (hb : Gives result b) (hx : a = .ok x) : b = .ok x := by
  subst hx
  cases ha
  cases hb
  rfl

theorem Shows.gives {y : FixedPoint} {a b : Except Overflow Operands} (ha : Shows y a)
    (hb : Shows y b) (input : String) :
    Gives a.toOption ((shown input b).mapError .operands) := by
  rw [ha.toOption_eq hb]
  exact gives_shown input b

/-! ## Integers -/

theorem isNearestEven_integer (n : ℕ) : IsNearestEven ((n : ℚ) * 10 ^ 0) n := by
  rw [pow_zero, mul_one]
  exact .natCast n

theorem ofFinite_zero_shows (n : ℕ) : Shows ⟨n, 0⟩ (ofFinite n 0) := by
  have hshows := ofFinite_shows n 0
  have hzero : n * 10 ^ (0 : ℤ).toNat = n := Nat.mul_one _
  rwa [hzero] at hshows

theorem Shows.toOption_eq_none {n : ℕ} {outcome : Except Overflow Operands}
    (h : Shows ⟨n, 0⟩ outcome) (hlarge : integerBound ≤ n) : outcome.toOption = none := by
  have hunits := two_pow_le_of_integerBound_le (isNearestEven_integer n) (Nat.zero_le 8) hlarge
  have hfits : ¬FixedPoint.Fits ⟨n, 0⟩ := by
    rw [fits_zero_places_iff, Nat.not_le]
    exact hunits
  exact h.toOption_eq (.outOfRange hfits fun _ => rfl)

theorem Shows.gives_rounded {k : ℤ} {a : Except Overflow Operands}
    {b : Except ConversionError Operands} (ha : Shows ⟨k.natAbs, 0⟩ a)
    (hb : Rounds (.integer k) k.natAbs 0 b) (hshort : k.natAbs < 10 ^ maxTextDigits) :
    Gives a.toOption b := by
  cases hb with
  | @nearest units x hq hnearest hfits hx hn hc =>
      rw [hnearest.unique (isNearestEven_integer _)] at hfits hn
      rw [ha.toOption_eq (.inRange hfits hx hn hc)]
      exact .operands x
  | @carried units input hq hnearest hfits =>
      rw [hnearest.unique (isNearestEven_integer _)] at hfits
      rw [ha.toOption_eq (.outOfRange hfits fun _ => rfl)]
      exact .overflow input .integerPart
  | refused hlow hhigh hnamed =>
      rw [ha.toOption_eq_none hlow]
      exact .overflow _ .integerPart
  | unnamed hlow hhigh hlong =>
      exact absurd (Number.unwritable_integer_iff.mp hlong) (Nat.not_le.mpr hshort)
  | unroundable hq =>
      have hreach : (k.natAbs : ℚ) < arithmeticBound :=
        calc
          (k.natAbs : ℚ) < 10 ^ maxTextDigits := by exact_mod_cast hshort
          _ < arithmeticBound := ten_pow_lt_arithmeticBound (by decide)
      exact absurd hreach hq.not_gt

theorem ofPlaces_integer_rounds (k : ℤ) :
    Rounds (.integer k) k.natAbs 0 (ofPlaces (.integer k) 0) :=
  ofPlaces_rounds (Number.magnitude?_integer k) (Nat.zero_le _)

theorem ofInt_of_short {k : ℤ} (h : k.natAbs < 10 ^ maxTextDigits) :
    ofInt k = (shown (toString k)
      (if maxInteger < k.natAbs then .error .integerPart
        else .ok (ofNat k.natAbs))).mapError .operands := by
  rw [ofInt, Number.refused_integer h]
  split <;> rfl

theorem ofInt_of_long {k : ℤ} (h : 10 ^ maxTextDigits ≤ k.natAbs) :
    ofInt k = .error (.digitLimit .writing) := by
  have hlarge : maxInteger < k.natAbs := maxInteger_lt_ten_pow_maxTextDigits.trans_le h
  rw [ofInt, if_pos hlarge, Number.refused_of_unwritable ⟨k, rfl, h⟩]

theorem integer_routes_agree {k : ℤ} (h : k.natAbs < 10 ^ maxTextDigits) :
    ∃ result text, writeInteger k = .ok text ∧ Gives result (ofInt k) ∧
      Gives result (ofString text) ∧ Gives result ((ofDecimal (.ofInt k)).mapError .operands) ∧
      Gives result (ofPlaces (.integer k) 0) := by
  have hshows := ofFinite_zero_shows k.natAbs
  have hdigits := ofDigits_shows (Nat.toDigits 10 k.natAbs) isDigitRun_nil
  rw [List.append_nil, digitsValue_toDigits] at hdigits
  refine ⟨(ofFinite k.natAbs 0).toOption, toString k, writeInteger_of_lt h, ?_, ?_,
    gives_shown _ _, hshows.gives_rounded (ofPlaces_integer_rounds k) h⟩
  · rw [ofInt_of_short h]
    exact hshows.gives (ofNat_shows k.natAbs) _
  · rw [ofString_of_not_overlong (spells_toString k) (not_overlong_toString h)]
    exact hshows.gives hdigits _

/-- An integer that cannot be written is too large as a decimal; no other way comes to say so. -/
theorem integer_routes_of_long {k : ℤ} (h : 10 ^ maxTextDigits ≤ k.natAbs) :
    Gives none ((ofDecimal (.ofInt k)).mapError .operands) ∧
      writeInteger k = .error .writing ∧ ofInt k = .error (.digitLimit .writing) ∧
      (k.natAbs < arithmeticBound → ofPlaces (.integer k) 0 = .error (.digitLimit .writing)) ∧
      (arithmeticBound ≤ k.natAbs → ofPlaces (.integer k) 0 = .error .unroundable) := by
  have hlong := Number.unwritable_integer_iff.mpr h
  have hvalue := Number.magnitude?_integer k
  have hrounds := ofPlaces_integer_rounds k
  refine ⟨?_, writeInteger_of_le h, ofInt_of_long h,
    fun hreach => (hrounds.eq_digitLimit_iff hvalue hreach).mpr hlong, hrounds.eq_unroundable⟩
  have hnone := (ofFinite_zero_shows k.natAbs).toOption_eq_none
    (integerBound_le_of_unwritable hvalue hlong)
  rw [← hnone]
  exact gives_shown _ _

/-! ## All ways together -/

/-- The text of a decimal shows what the decimal does, unless the text is overlong, which only that
of a zero need be.  An integer that can be written is shown alike in all ways; one that cannot be
written is too large as a decimal and refused in other ways as an integer. -/
theorem routes_agree (negative : Bool) (coefficient : ℕ) (exponent : ℤ) (k : ℤ) :
    ((∃ text : String, WritesOut text.toList coefficient exponent ∧
        (Overlong text.toList → coefficient = 0 ∧ maxTextDigits ≤ exponent)) ∧
      ∃ result,
        Gives result ((ofDecimal (.finite negative coefficient exponent)).mapError .operands) ∧
          ∀ text : String, WritesOut text.toList coefficient exponent →
            (¬Overlong text.toList → Gives result (ofString text)) ∧
            (Overlong text.toList → ofString text =
              .error (.digitLimit (.reading (wholeDigits text.toList).length)))) ∧
    (k.natAbs < 10 ^ maxTextDigits → ∃ result text, writeInteger k = .ok text ∧
      Gives result (ofInt k) ∧ Gives result (ofString text) ∧
      Gives result ((ofDecimal (.ofInt k)).mapError .operands) ∧
      Gives result (ofPlaces (.integer k) 0)) ∧
    (10 ^ maxTextDigits ≤ k.natAbs →
      Gives none ((ofDecimal (.ofInt k)).mapError .operands) ∧
      writeInteger k = .error .writing ∧ ofInt k = .error (.digitLimit .writing) ∧
      (k.natAbs < arithmeticBound → ofPlaces (.integer k) 0 = .error (.digitLimit .writing)) ∧
      (arithmeticBound ≤ k.natAbs → ofPlaces (.integer k) 0 = .error .unroundable)) := by
  refine ⟨⟨?_, ?_⟩, integer_routes_agree, integer_routes_of_long⟩
  · obtain ⟨chars, hchars, hoverlong⟩ := exists_writesOut coefficient exponent
    refine ⟨String.ofList chars, ?_⟩
    rw [String.toList_ofList]
    exact ⟨hchars, hoverlong⟩
  · refine ⟨(ofFinite coefficient exponent).toOption, gives_shown _ _, ?_⟩
    intro text htext
    obtain ⟨whole, fraction, hspells, hshows⟩ := htext.exists_spells
    refine ⟨fun hshort => ?_, ofString_of_overlong hspells⟩
    rw [ofString_of_not_overlong hspells hshort]
    exact (ofFinite_shows coefficient exponent).gives hshows text

/-- A price is shown alike as a decimal and as text, and an integer in all ways. -/
theorem routes_agree_price :
    (∃ x, ofDecimal (.finite true 150 (-2)) = .ok x ∧ ofString "-1.50" = .ok x) ∧
      ∃ x, ofInt (-7) = .ok x ∧ ofPlaces (.integer (-7)) 0 = .ok x := by
  have hwhole : IsDigitRun ['1'] := List.all_eq_true.mp rfl
  have hfraction : IsDigitRun ['5', '0'] := List.all_eq_true.mp rfl
  have hwritten : WritesOut "-1.50".toList 150 (-2) :=
    .pointed .minus (List.cons_ne_nil _ _) hwhole (List.cons_ne_nil _ _) hfraction
  have hfew : ¬Overlong "-1.50".toList := fun hlong => absurd hlong.1 (by decide)
  have hsmall : (-7 : ℤ).natAbs < 10 ^ maxTextDigits :=
    lt_trans (by decide) maxInteger_lt_ten_pow_maxTextDigits
  obtain ⟨⟨-, result, hdecimal, htext⟩, hinteger, -⟩ := routes_agree true 150 (-2) (-7)
  constructor
  · have hshown := (htext _ hwritten).1 hfew
    exact ⟨_, rfl, hdecimal.eq_ok hshown rfl⟩
  · obtain ⟨result', text, -, hint, -, -, hrounded⟩ := hinteger hsmall
    exact ⟨_, rfl, hint.eq_ok hrounded rfl⟩

theorem arithmeticBound_le_ten_pow : arithmeticBound ≤ 10 ^ 1000000 := by
  have hstep : (0 : ℚ) ≤ 5 * 10 ^ 999971 := mul_nonneg (by norm_num) (pow_nonneg (by norm_num) _)
  exact sub_le_self _ hstep

theorem routes_ten_pow {digits : ℕ} (h : 1000000 ≤ digits) :
    Gives none ((ofDecimal (.ofInt (10 ^ digits))).mapError .operands) ∧
      ofInt (10 ^ digits) = .error (.digitLimit .writing) ∧
      ofPlaces (.integer (10 ^ digits)) 0 = .error .unroundable := by
  have habs : ((10 : ℤ) ^ digits).natAbs = 10 ^ digits := Int.natAbs_pow 10 digits
  have hlong : 10 ^ maxTextDigits ≤ ((10 : ℤ) ^ digits).natAbs := by
    rw [habs]
    exact Nat.pow_le_pow_right (by decide) (le_trans (by decide) h)
  have hbeyond : arithmeticBound ≤ ((10 : ℤ) ^ digits).natAbs := by
    rw [habs, Nat.cast_pow, Nat.cast_ofNat]
    exact arithmeticBound_le_ten_pow.trans (pow_le_pow_right₀ (by norm_num) h)
  obtain ⟨hdecimal, -, hint, -, hrounded⟩ := integer_routes_of_long hlong
  exact ⟨hdecimal, hint, hrounded hbeyond⟩

/-- An integer of a million digits and one is too large as a decimal, but neither as an integer nor
rounded it is refused for that. -/
theorem routes_disagree_beyond_arithmetic :
    Gives none ((ofDecimal (.ofInt (10 ^ 1000000))).mapError .operands) ∧
      ofInt (10 ^ 1000000) = .error (.digitLimit .writing) ∧
      ofPlaces (.integer (10 ^ 1000000)) 0 = .error .unroundable :=
  routes_ten_pow (Nat.le_refl 1000000)

end Operands

end PluralForms
