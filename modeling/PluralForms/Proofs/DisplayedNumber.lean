import Mathlib.Data.Rat.Floor
import Mathlib.Tactic.FieldSimp
import Mathlib.Tactic.Linarith
import Mathlib.Tactic.NormNum
import Mathlib.Tactic.Positivity
import Mathlib.Tactic.Ring
import PluralForms.Operands.Conversion
import PluralForms.Proofs.DigitRuns

/-!
# Operands of displayed numbers

There are five ways from an input to operands, but all of them end at the digits before and after
the point.  So one set of laws holds of whatever operands are given: the value is made up of the
integer part and the shown fraction, and the fraction without the zeros behind is in lowest terms
as a decimal.
-/

namespace PluralForms

open Text

def FixedPoint.value (x : FixedPoint) : ℚ :=
  x.units / 10 ^ x.places

theorem mapError_eq_ok_iff {ε ε' α : Type} {outcome : Except ε α} {f : ε → ε'} {a : α} :
    outcome.mapError f = .ok a ↔ outcome = .ok a := by
  cases outcome <;> simp [Except.mapError]

namespace Operands

/-! ## The laws -/

/-- How the operands of a number fit together. -/
structure Coherent (x : Operands) : Prop where
  i_le : x.i ≤ maxInteger
  w_le_v : x.w ≤ x.v
  v_le : x.v ≤ maxFractionDigits
  c_le : x.c ≤ maxCompactExponent
  places_n : x.n.places = x.v
  units_n : x.n.units = x.i * 10 ^ x.v + x.f
  f_lt : x.f < 10 ^ x.v
  f_eq : x.f = x.t * 10 ^ (x.v - x.w)
  t_of_w_eq_zero : x.w = 0 → x.t = 0
  not_ten_dvd_t : x.w ≠ 0 → ¬10 ∣ x.t

namespace Coherent

variable {x y : Operands}

theorem t_eq_zero_iff (h : x.Coherent) : x.t = 0 ↔ x.w = 0 := by
  constructor
  · intro ht
    by_contra hw
    exact h.not_ten_dvd_t hw (ht ▸ Nat.dvd_zero 10)
  · exact h.t_of_w_eq_zero

theorem t_le_f (h : x.Coherent) : x.t ≤ x.f := by
  rw [h.f_eq]
  exact Nat.le_mul_of_pos_right x.t (by positivity)

theorem f_le (h : x.Coherent) : x.f ≤ maxInteger := by
  have hpow : 10 ^ x.v ≤ 10 ^ maxFractionDigits := Nat.pow_le_pow_right (by omega) h.v_le
  have hlt := h.f_lt
  have hmax : 10 ^ maxFractionDigits ≤ maxInteger := ten_pow_maxFractionDigits_le
  omega

theorem value_n (h : x.Coherent) : x.n.value = x.i + x.f / 10 ^ x.v := by
  have hpow : (10 : ℚ) ^ x.v ≠ 0 := by positivity
  rw [FixedPoint.value, h.places_n, h.units_n]
  push_cast
  field_simp

/-- The fraction is the same without the zeros behind. -/
theorem fraction_eq (h : x.Coherent) : (x.f : ℚ) / 10 ^ x.v = x.t / 10 ^ x.w := by
  have hw : (10 : ℚ) ^ x.w ≠ 0 := by positivity
  have hv : (10 : ℚ) ^ x.v = 10 ^ x.w * 10 ^ (x.v - x.w) := by
    rw [← pow_add, Nat.add_sub_cancel' h.w_le_v]
  rw [h.f_eq, hv]
  push_cast
  field_simp

theorem fraction_lt_one (h : x.Coherent) : (x.f : ℚ) / 10 ^ x.v < 1 := by
  rw [div_lt_one (by positivity)]
  exact_mod_cast h.f_lt

theorem floor_n (h : x.Coherent) : ⌊x.n.value⌋₊ = x.i := by
  have hlt := h.fraction_lt_one
  have hpos : (0 : ℚ) ≤ x.f / 10 ^ x.v := by positivity
  rw [Nat.floor_eq_iff (by rw [h.value_n]; positivity), h.value_n]
  constructor
  · linarith
  · linarith

/-- Of two equal fractions in lowest terms the one with more digits would end in a zero. -/
theorem w_le_of_fraction_eq (hy : y.Coherent)
    (h : (x.t : ℚ) / 10 ^ x.w = y.t / 10 ^ y.w) : y.w ≤ x.w := by
  by_contra hlt
  -- With more digits `y.t` would be `x.t` with zeros behind it.
  have hpow : (10 : ℚ) ^ y.w = 10 ^ x.w * 10 ^ (y.w - x.w) := by
    rw [← pow_add, Nat.add_sub_cancel' (by omega)]
  have ht : (y.t : ℚ) = x.t * 10 ^ (y.w - x.w) := by
    rw [hpow] at h
    field_simp at h
    linarith
  have ht : y.t = x.t * 10 ^ (y.w - x.w) := by exact_mod_cast ht
  apply hy.not_ten_dvd_t (by omega)
  rw [ht]
  exact Dvd.dvd.mul_left (dvd_pow_self 10 (by omega)) x.t

/-- The value alone decides the fraction without the zeros behind. -/
theorem w_t_eq_of_value_eq (hx : x.Coherent) (hy : y.Coherent) (h : x.n.value = y.n.value) :
    x.w = y.w ∧ x.t = y.t := by
  have hi : x.i = y.i := by rw [← hx.floor_n, ← hy.floor_n, h]
  have hfraction : (x.t : ℚ) / 10 ^ x.w = y.t / 10 ^ y.w := by
    rw [hx.value_n, hy.value_n, hi, hx.fraction_eq, hy.fraction_eq] at h
    linarith
  have hw : x.w = y.w :=
    Nat.le_antisymm (hx.w_le_of_fraction_eq hfraction.symm) (hy.w_le_of_fraction_eq hfraction)
  refine ⟨hw, ?_⟩
  rw [hw, div_left_inj' (by positivity)] at hfraction
  exact_mod_cast hfraction

end Coherent

/-! ## Operands of digits -/

theorem coherent_ofNat {n : Nat} (h : n ≤ maxInteger) : (ofNat n).Coherent where
  i_le := h
  w_le_v := le_refl 0
  v_le := Nat.zero_le _
  c_le := Nat.zero_le _
  places_n := rfl
  units_n := by simp [ofNat, FixedPoint.ofNat]
  f_lt := by simp [ofNat]
  f_eq := by simp [ofNat]
  t_of_w_eq_zero := fun _ => rfl
  not_ten_dvd_t := fun h => absurd rfl h

theorem coherent_ofSplit {whole fraction : List Char} {compact : Nat}
    (hrun : IsDigitRun fraction) (hwhole : digitsValue whole ≤ maxInteger)
    (hlength : fraction.length ≤ maxFractionDigits) (hcompact : compact ≤ maxCompactExponent) :
    (ofSplit whole fraction compact).Coherent where
  i_le := hwhole
  w_le_v := length_withoutTrailingZeros_le fraction
  v_le := hlength
  c_le := hcompact
  places_n := rfl
  units_n := digitsValue_append whole fraction
  f_lt := digitsValue_lt hrun
  f_eq := digitsValue_eq_withoutTrailingZeros fraction
  t_of_w_eq_zero := by
    intro hw
    have hnil : withoutTrailingZeros fraction = [] := List.length_eq_zero_iff.mp hw
    simp [ofSplit, hnil]
  not_ten_dvd_t := by
    intro hw
    exact not_ten_dvd_withoutTrailingZeros hrun fun hnil => hw (List.length_eq_zero_iff.mpr hnil)

theorem isDigitRun_movePoint {whole fraction : List Char} (hwhole : IsDigitRun whole)
    (hfraction : IsDigitRun fraction) (places : Nat) :
    IsDigitRun (movePoint whole fraction places).1 ∧
      IsDigitRun (movePoint whole fraction places).2 := by
  have hdigits := hwhole.append hfraction
  constructor
  · exact (hdigits.of_subset (List.take_subset _ _)).append (isDigitRun_zeros _)
  · exact hdigits.of_subset (List.drop_subset _ _)

theorem ofDigits_coherent {whole fraction : List Char} {compact : Nat} {x : Operands}
    (hwhole : IsDigitRun whole) (hfraction : IsDigitRun fraction)
    (hcompact : compact ≤ maxCompactExponent) (h : ofDigits whole fraction compact = .ok x) :
    x.Coherent := by
  have hmoved := isDigitRun_movePoint hwhole hfraction compact
  simp only [ofDigits] at h
  split at h
  · cases h
  · split at h
    · cases h
    · cases h
      exact coherent_ofSplit hmoved.2 (by omega) (by omega) hcompact

/-! ## Decimal text -/

theorem part?_isDigitRun {isMark : Char → Bool} {chars rest : List Char}
    {part : Option (List Char)} (h : DecimalText.part? isMark chars = some (part, rest)) :
    IsDigitRun (part.getD []) := by
  cases chars with
  | nil =>
      cases h
      exact isDigitRun_nil
  | cons c more =>
      simp only [DecimalText.part?] at h
      split at h
      · split at h
        · cases h
        · rename_i digit digits hrun
          cases h
          rw [Option.getD_some, ← hrun]
          exact isDigitRun_takeWhile more
      · cases h
        exact isDigitRun_nil

theorem parse?_isDigitRun {chars : List Char} {text : DecimalText}
    (h : DecimalText.parse? chars = some text) :
    IsDigitRun text.whole ∧ IsDigitRun text.fraction := by
  simp only [DecimalText.parse?, Option.bind_eq_bind, Option.bind_eq_some_iff] at h
  obtain ⟨_, -, ⟨fraction, afterPoint⟩, hfraction, ⟨exponent, rest⟩, -, _, -, htext⟩ := h
  cases htext
  exact ⟨isDigitRun_takeWhile _, part?_isDigitRun hfraction⟩

theorem compact_le {text : DecimalText} {compact : Nat} (h : text.compact = .ok compact) :
    compact ≤ maxCompactExponent := by
  simp only [DecimalText.compact] at h
  split at h
  · cases h
    exact Nat.zero_le _
  · split at h
    · cases h
    · cases h
      omega

theorem ofText_coherent {text : String} {x : Operands} (h : ofText text = .ok x) :
    x.Coherent := by
  simp only [ofText] at h
  split at h
  · cases h
  · rename_i parts hparse
    have hruns := parse?_isDigitRun hparse
    rw [shown, mapError_eq_ok_iff, DecimalText.operands] at h
    cases hcompact : parts.compact with
    | error e =>
        rw [hcompact] at h
        cases h
    | ok compact =>
        rw [hcompact] at h
        exact ofDigits_coherent hruns.1 hruns.2 (compact_le hcompact) h

theorem ofText_of_ofString {text : String} {x : Operands} (h : ofString text = .ok x) :
    ofText text = .ok x := by
  unfold ofString at h
  split at h
  · cases h
  · exact mapError_eq_ok_iff.mp h

/-! ## Integers and decimals -/

theorem ofInt_coherent {value : Int} {x : Operands} (h : ofInt value = .ok x) : x.Coherent := by
  simp only [ofInt] at h
  split at h
  · cases h
  · cases h
    exact coherent_ofNat (by omega)

theorem isDigitRun_split (x : FixedPoint) : IsDigitRun x.split.1 ∧ IsDigitRun x.split.2 := by
  have hdigits := isDigitRun_toDigits x.units
  have hpadded := (isDigitRun_zeros (x.places + 1 - (Nat.toDigits 10 x.units).length)).append
    hdigits
  rw [FixedPoint.split, List.splitAt_eq]
  exact ⟨hpadded.of_subset (List.take_subset _ _), hpadded.of_subset (List.drop_subset _ _)⟩

theorem ofFinite_coherent {coefficient : Nat} {exponent : Int} {x : Operands}
    (h : ofFinite coefficient exponent = .ok x) : x.Coherent := by
  simp only [ofFinite] at h
  split at h
  · cases h
    exact coherent_ofNat (Nat.zero_le _)
  · split at h
    · cases h
    · split at h
      · cases h
      · split at h
        · have hdigits := (isDigitRun_toDigits coefficient).append (isDigitRun_zeros exponent.toNat)
          exact ofDigits_coherent hdigits isDigitRun_nil (Nat.zero_le _) h
        · have hsplit := isDigitRun_split ⟨coefficient, (-exponent).toNat⟩
          exact ofDigits_coherent hsplit.1 hsplit.2 (Nat.zero_le _) h

theorem ofDecimal_coherent {value : Decimal} {x : Operands} (h : ofDecimal value = .ok x) :
    x.Coherent := by
  simp only [ofDecimal] at h
  split at h
  · exact ofFinite_coherent (mapError_eq_ok_iff.mp h)
  · cases h

/-! ## A given count of fraction digits -/

theorem ofRounded_coherent {value : Number} {decimal : Decimal} {places : Nat} {x : Operands}
    (h : ofRounded value decimal places = .ok x) : x.Coherent := by
  cases decimal with
  | infinite negative => cases h
  | nan negative signaling payload => cases h
  | finite negative coefficient exponent =>
      simp only [ofRounded] at h
      split at h
      · cases h
      · split at h
        · cases h
        · split at h
          · cases h
          · exact ofDecimal_coherent (mapError_eq_ok_iff.mp h)

theorem ofPlaces_coherent {value : Number} {places : Int} {x : Operands}
    (h : ofPlaces value places = .ok x) : x.Coherent := by
  simp only [ofPlaces] at h
  split at h
  · cases h
  · split at h
    · cases h
    · cases value with
      | integer n => exact ofRounded_coherent h
      | decimal d => exact ofRounded_coherent h
      | binary b => exact ofRounded_coherent h
      | boolean b => cases h
      | foreign other => cases h
      | text text =>
          simp only at h
          split at h
          · exact ofRounded_coherent h
          · cases h

theorem ofNumber_coherent {value : Number} {places : Option Int} {x : Operands}
    (h : ofNumber value places = .ok x) : x.Coherent := by
  cases places with
  | some places =>
      cases value with
      | text text => cases h
      | _ => exact ofPlaces_coherent h
  | none =>
      cases value with
      | boolean b => cases h
      | binary b => cases h
      | foreign other => cases h
      | text text => exact ofText_coherent (ofText_of_ofString h)
      | integer n => exact ofInt_coherent h
      | decimal d => exact ofDecimal_coherent (mapError_eq_ok_iff.mp h)

/-! ## All ways together -/

/-- Operands that some input has, handed in one way or another. -/
inductive Displayed : Operands → Prop where
  | ofText {text x} (h : ofText text = .ok x) : Displayed x
  | ofInt {value x} (h : ofInt value = .ok x) : Displayed x
  | ofDecimal {value x} (h : ofDecimal value = .ok x) : Displayed x
  | ofPlaces {value places x} (h : ofPlaces value places = .ok x) : Displayed x
  | ofNumber {value places x} (h : ofNumber value places = .ok x) : Displayed x

theorem Displayed.coherent {x : Operands} (h : Displayed x) : x.Coherent := by
  cases h with
  | ofText h => exact ofText_coherent h
  | ofInt h => exact ofInt_coherent h
  | ofDecimal h => exact ofDecimal_coherent h
  | ofPlaces h => exact ofPlaces_coherent h
  | ofNumber h => exact ofNumber_coherent h

/-- The operands of any input are in range, the value is the integer part and the shown fraction,
and the fraction without the zeros behind is the same one in lowest terms, so that the value
decides it. -/
theorem displayed_laws {x : Operands} (hx : Displayed x) :
    x.i ≤ 2 ^ 64 - 1 ∧ x.w ≤ x.v ∧ x.v ≤ 18 ∧ x.c ≤ 21 ∧ x.e = x.c ∧
    x.f < 10 ^ x.v ∧ x.f ≤ 2 ^ 64 - 1 ∧ x.t ≤ 2 ^ 64 - 1 ∧
    x.n.value = x.i + x.f / 10 ^ x.v ∧
    x.f = x.t * 10 ^ (x.v - x.w) ∧
    (x.t = 0 ↔ x.w = 0) ∧ (x.t ≠ 0 → ¬10 ∣ x.t) ∧
    x.i = ⌊x.n.value⌋₊ ∧
    ∀ y, Displayed y → y.n.value = x.n.value → y.w = x.w ∧ y.t = x.t := by
  have h := hx.coherent
  refine ⟨h.i_le, h.w_le_v, h.v_le, h.c_le, rfl, h.f_lt, h.f_le, h.t_le_f.trans h.f_le, h.value_n,
    h.f_eq, h.t_eq_zero_iff, ?_, h.floor_n.symm, ?_⟩
  · intro ht
    exact h.not_ten_dvd_t fun hw => ht (h.t_of_w_eq_zero hw)
  · intro y hy hvalue
    exact hy.coherent.w_t_eq_of_value_eq h hvalue

/-- The operands of 123.40, written as a number of hundreds. -/
def hundreds : Operands where
  n := ⟨12340, 2⟩
  i := 123
  v := 2
  w := 1
  f := 40
  t := 4
  c := 2

theorem ofText_hundreds : ofText "1.2340c2" = .ok hundreds := by
  decide

/-- The zero behind is shown, but does not count in lowest terms. -/
theorem displayed_laws_hundreds :
    Displayed hundreds ∧ hundreds.f = 40 ∧ hundreds.t = 4 ∧ hundreds.n.value = 123 + 40 / 10 ^ 2 := by
  have hx : Displayed hundreds := .ofText ofText_hundreds
  obtain ⟨-, -, -, -, -, -, -, -, hvalue, -⟩ := displayed_laws hx
  exact ⟨hx, rfl, rfl, by simpa [hundreds] using hvalue⟩

end Operands

end PluralForms
