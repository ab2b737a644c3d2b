import PluralForms.Proofs.DecimalTexts
import PluralForms.Proofs.HalfEven

/-!
# Numbers that are shown with all their digits

Operands are decided by the number that is shown, its places included, and by the compact exponent.
So two ways to show one number agree: both give the same operands, or both refuse it.
-/

namespace PluralForms

open Text

/-- The integer part has 64 bits, and not too many fraction digits are shown. -/
def FixedPoint.Fits (y : FixedPoint) : Prop :=
  y.units / y.scale ≤ maxInteger ∧ y.places ≤ maxFractionDigits

namespace Operands

/-- The number that is shown and the compact exponent decide all operands. -/
theorem Coherent.eq_of_n_eq {x y : Operands} (hx : x.Coherent) (hy : y.Coherent) (hn : x.n = y.n)
    (hc : x.c = y.c) : x = y := by
  have hv : x.v = y.v := by rw [← hx.places_n, ← hy.places_n, hn]
  have hi : x.i = y.i := by rw [← hx.floor_n, ← hy.floor_n, hn]
  have hf : x.f = y.f := by
    have hunits : x.i * 10 ^ x.v + x.f = y.i * 10 ^ y.v + y.f := by
      rw [← hx.units_n, ← hy.units_n, hn]
    rw [hi, hv] at hunits
    exact Nat.add_left_cancel hunits
  obtain ⟨hw, ht⟩ := hx.w_t_eq_of_value_eq hy (congrArg FixedPoint.value hn)
  cases x
  cases y
  simp_all

/-! ## Outcomes -/

/-- What becomes of a number that is to be shown: operands if it is in range, or else a refusal, for
its integer part if not for its places. -/
inductive Shows (y : FixedPoint) : Except Overflow Operands → Prop where
  | inRange {x} (hfits : y.Fits) (hx : x.Coherent) (hn : x.n = y) (hc : x.c = 0) : Shows y (.ok x)
  | outOfRange {cause} (hfits : ¬y.Fits)
      (hcause : y.places ≤ maxFractionDigits → cause = .integerPart) : Shows y (.error cause)

theorem Shows.toOption_eq {y : FixedPoint} {a b : Except Overflow Operands} (ha : Shows y a)
    (hb : Shows y b) : a.toOption = b.toOption := by
  cases ha with
  | inRange hfits hx hn hc =>
      cases hb with
      | inRange _ hx' hn' hc' =>
          exact congrArg some (hx.eq_of_n_eq hx' (hn.trans hn'.symm) (hc.trans hc'.symm))
      | outOfRange hfits' _ => exact absurd hfits hfits'
  | outOfRange hfits _ =>
      cases hb with
      | inRange hfits' _ _ _ => exact absurd hfits' hfits
      | outOfRange _ _ => rfl

/-! ## Digits -/

theorem ofDigits_shows (whole : List Char) {fraction : List Char}
    (hfraction : IsDigitRun fraction) :
    Shows ⟨digitsValue (whole ++ fraction), fraction.length⟩ (ofDigits whole fraction 0) := by
  have hinteger : digitsValue (whole ++ fraction) / 10 ^ fraction.length = digitsValue whole := by
    rw [digitsValue_append, Nat.mul_comm, Nat.mul_add_div (by positivity),
      Nat.div_eq_of_lt (digitsValue_lt hfraction), Nat.add_zero]
  have hfits : FixedPoint.Fits ⟨digitsValue (whole ++ fraction), fraction.length⟩ ↔
      digitsValue whole ≤ maxInteger ∧ fraction.length ≤ maxFractionDigits := by
    rw [← hinteger]
    exact Iff.rfl
  simp only [ofDigits, movePoint_zero]
  split
  · next hlarge =>
      exact .outOfRange (fun h => Nat.not_le.mpr hlarge (hfits.mp h).1) fun _ => rfl
  · next hinteger =>
      split
      · next hlong =>
          exact .outOfRange (fun h => Nat.not_le.mpr hlong (hfits.mp h).2)
            fun hplaces => absurd hlong (Nat.not_lt.mpr hplaces)
      · next hplaces =>
          have hinteger := Nat.not_lt.mp hinteger
          have hplaces := Nat.not_lt.mp hplaces
          exact .inRange (hfits.mpr ⟨hinteger, hplaces⟩)
            (coherent_ofSplit hfraction hinteger hplaces (Nat.zero_le _)) rfl rfl

end Operands

namespace FixedPoint

theorem digitsValue_split (y : FixedPoint) : digitsValue (y.split.1 ++ y.split.2) = y.units := by
  simp only [split, List.splitAt_eq, List.take_append_drop]
  rw [digitsValue_append, digitsValue_zeros, digitsValue_toDigits, Nat.zero_mul, Nat.zero_add]

theorem length_split (y : FixedPoint) : 0 < y.split.1.length ∧ y.split.2.length = y.places := by
  simp only [split, List.splitAt_eq, List.length_take, List.length_drop, List.length_append,
    List.length_replicate]
  omega

end FixedPoint

namespace Operands

theorem fits_zero_places_iff (n : ℕ) : FixedPoint.Fits ⟨n, 0⟩ ↔ n ≤ maxInteger := by
  simp [FixedPoint.Fits, FixedPoint.scale]

theorem ofNat_shows (n : ℕ) :
    Shows ⟨n, 0⟩ (if maxInteger < n then .error .integerPart else .ok (ofNat n)) := by
  split
  · next h =>
      exact .outOfRange (fun hfits => Nat.not_le.mpr h ((fits_zero_places_iff n).mp hfits))
        fun _ => rfl
  · next h =>
      have hle := Nat.not_lt.mp h
      exact .inRange ((fits_zero_places_iff n).mpr hle) (coherent_ofNat hle) rfl rfl

theorem ten_pow_le_of_lt_digits {coefficient zeros digits : ℕ} (hne : coefficient ≠ 0)
    (h : digits < digitCount coefficient + zeros) : 10 ^ digits ≤ coefficient * 10 ^ zeros := by
  have hlow : 10 ^ (digitCount coefficient - 1) ≤ coefficient :=
    ten_pow_le_of_lt_digitCount hne (Nat.sub_lt Nat.length_toDigits_pos one_pos)
  calc
    10 ^ digits ≤ 10 ^ (digitCount coefficient - 1 + zeros) :=
      Nat.pow_le_pow_right (by omega) (by omega)
    _ = 10 ^ (digitCount coefficient - 1) * 10 ^ zeros := Nat.pow_add 10 _ _
    _ ≤ coefficient * 10 ^ zeros := Nat.mul_le_mul_right _ hlow

theorem maxInteger_lt_of_digitCount {coefficient zeros : ℕ} (hne : coefficient ≠ 0)
    (h : 21 < digitCount coefficient + zeros) : maxInteger < coefficient * 10 ^ zeros :=
  calc
    maxInteger < 10 ^ 21 := by decide
    _ ≤ coefficient * 10 ^ zeros := ten_pow_le_of_lt_digits hne h

/-- A decimal is shown with all zeros that its exponent asks for. -/
theorem ofFinite_shows (coefficient : ℕ) (exponent : ℤ) :
    Shows ⟨coefficient * 10 ^ exponent.toNat, (-exponent).toNat⟩ (ofFinite coefficient exponent) := by
  unfold ofFinite
  split
  · next h =>
      obtain ⟨rfl, hexponent⟩ := h
      have hplaces : (-exponent).toNat = 0 := by omega
      rw [Nat.zero_mul, hplaces]
      exact ofNat_shows 0
  · next hzero =>
      split
      · next h =>
          have hne : coefficient ≠ 0 := fun hcoefficient => hzero ⟨hcoefficient, h.1.le⟩
          have hlarge : maxInteger < coefficient * 10 ^ exponent.toNat :=
            maxInteger_lt_of_digitCount hne (by omega)
          have hplaces : (-exponent).toNat = 0 := by omega
          rw [hplaces]
          exact .outOfRange
            (fun hfits => Nat.not_le.mpr hlarge ((fits_zero_places_iff _).mp hfits)) fun _ => rfl
      · split
        · next h =>
            have hplaces : ¬(-exponent).toNat ≤ maxFractionDigits := by omega
            exact .outOfRange (fun hfits => hplaces hfits.2) fun hfew => absurd hfew hplaces
        · split
          · next h =>
              have hshows := ofDigits_shows
                (Nat.toDigits 10 coefficient ++ List.replicate exponent.toNat '0') isDigitRun_nil
              rw [List.append_nil, digitsValue_append, digitsValue_toDigits, digitsValue_zeros,
                List.length_replicate, Nat.add_zero] at hshows
              have hplaces : (-exponent).toNat = 0 := by omega
              rw [hplaces]
              exact hshows
          · next h =>
              have hexponent : exponent.toNat = 0 := by omega
              let y : FixedPoint := ⟨coefficient, (-exponent).toNat⟩
              have hshows := ofDigits_shows y.split.1 (isDigitRun_split y).2
              rw [FixedPoint.digitsValue_split, (FixedPoint.length_split _).2] at hshows
              rw [hexponent, Nat.pow_zero, Nat.mul_one]
              exact hshows

end Operands

end PluralForms
