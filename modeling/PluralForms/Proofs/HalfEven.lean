import Mathlib.Algebra.Order.Field.Basic
import Mathlib.Algebra.Order.Field.Power
import Mathlib.Algebra.Order.Field.Rat
import Mathlib.Algebra.Order.Ring.Abs
import Mathlib.Tactic.FieldSimp
import Mathlib.Tactic.Linarith
import Mathlib.Tactic.NormNum
import Mathlib.Tactic.Positivity
import Mathlib.Tactic.Ring
import PluralForms.Proofs.DigitRuns

/-!
# Rounding to the nearest, ties to even

Rounding is compared with the exact number, a rational one.  An even bound is reached by rounding
from half a unit below it on, and this decides which numbers a rounded comparison takes for too
large.
-/

namespace PluralForms

/-! ## The nearest integer -/

/-- `k` is an integer nearest to `q`, and the even one of two. -/
structure IsNearestEven (q : ℚ) (k : ℕ) : Prop where
  abs_le : |q - k| ≤ 1 / 2
  even_of_tie : |q - k| = 1 / 2 → Even k

namespace IsNearestEven

variable {q : ℚ} {k : ℕ}

theorem natCast (k : ℕ) : IsNearestEven k k where
  abs_le := by simp
  even_of_tie := by simp

/-- An even number is reached from half a unit below it on. -/
theorem le_iff_of_even (h : IsNearestEven q k) {b : ℕ} (hb : Even b) :
    b ≤ k ↔ (b : ℚ) - 1 / 2 ≤ q := by
  have hnear := abs_sub_le_iff.mp h.abs_le
  constructor
  · intro hle
    have hle : (b : ℚ) ≤ k := by exact_mod_cast hle
    linarith
  · intro hle
    by_contra hlt
    have hsucc : k + 1 ≤ b := Nat.not_le.mp hlt
    have hcast : (k : ℚ) + 1 ≤ b := by exact_mod_cast hsucc
    -- Only a tie between `k` and `b = k + 1` is left, and of these `b` is the even one.
    have hnext : b = k + 1 := by
      have hcast : (b : ℚ) ≤ (k + 1 : ℕ) := by push_cast; linarith
      exact Nat.le_antisymm (by exact_mod_cast hcast) hsucc
    have htie : |q - k| = 1 / 2 := by
      have hdiff : q - k = 1 / 2 := by linarith
      rw [hdiff, abs_of_pos (by norm_num)]
    have heven := h.even_of_tie htie
    rw [hnext] at hb
    exact (Nat.not_even_iff_odd.mpr heven.add_one) hb

theorem le_of_natCast_le (h : IsNearestEven q k) {n : ℕ} (hn : (n : ℚ) ≤ q) : n ≤ k := by
  have hnear := abs_sub_le_iff.mp h.abs_le
  have hlt : (n : ℚ) < (k + 1 : ℕ) := by
    push_cast
    linarith
  exact Nat.lt_succ_iff.mp (by exact_mod_cast hlt)

theorem le_of_le_natCast (h : IsNearestEven q k) {n : ℕ} (hn : q ≤ n) : k ≤ n := by
  have hnear := abs_sub_le_iff.mp h.abs_le
  have hlt : (k : ℚ) < (n + 1 : ℕ) := by
    push_cast
    linarith
  exact Nat.lt_succ_iff.mp (by exact_mod_cast hlt)

/-- Two nearest integers would be neighbours, and only one of these is even. -/
theorem unique {m : ℕ} (hk : IsNearestEven q k) (hm : IsNearestEven q m) : k = m := by
  have hle : ∀ {a b : ℕ}, IsNearestEven q a → IsNearestEven q b → a ≤ b := by
    intro a b ha hb
    by_contra hlt
    have hanear := abs_sub_le_iff.mp ha.abs_le
    have hbnear := abs_sub_le_iff.mp hb.abs_le
    have hab : (b : ℚ) + 1 ≤ a := by exact_mod_cast Nat.not_le.mp hlt
    have hnext : a = b + 1 := by
      have hcast : (a : ℚ) = (b + 1 : ℕ) := by
        push_cast
        linarith
      exact_mod_cast hcast
    have hatie : |q - a| = 1 / 2 := by
      rw [abs_sub_comm, abs_of_nonneg (by linarith)]
      linarith
    have hbtie : |q - b| = 1 / 2 := by
      rw [abs_of_nonneg (by linarith)]
      linarith
    have hodd := (hb.even_of_tie hbtie).add_one
    rw [← hnext] at hodd
    exact Nat.not_even_iff_odd.mpr hodd (ha.even_of_tie hatie)
  exact Nat.le_antisymm (hle hk hm) (hle hm hk)

end IsNearestEven

theorem divHalfEven_eq_or (n d : ℕ) : divHalfEven n d = n / d ∨ divHalfEven n d = n / d + 1 := by
  unfold divHalfEven
  split
  · exact .inr rfl
  · exact .inl rfl

theorem isNearestEven_divHalfEven (n : ℕ) {d : ℕ} (hd : 0 < d) :
    IsNearestEven (n / d) (divHalfEven n d) := by
  have hpos : (0 : ℚ) < d := by exact_mod_cast hd
  have hdist : |(n : ℚ) / d - divHalfEven n d| =
      |(2 * n - 2 * (divHalfEven n d * d) : ℚ)| / (2 * d) := by
    have hdiff : (n : ℚ) / d - divHalfEven n d =
        (2 * n - 2 * (divHalfEven n d * d)) / (2 * d) := by
      field_simp
    rw [hdiff, abs_div, abs_of_pos (show (0 : ℚ) < 2 * d by linarith)]
  have hhalf : (1 : ℚ) / 2 = d / (2 * d) := by
    field_simp
  constructor
  · have habove : 2 * ((divHalfEven n d : ℚ) * d) ≤ 2 * n + d := by
      exact_mod_cast two_mul_divHalfEven_le n d
    have hbelow : 2 * (n : ℚ) ≤ 2 * (divHalfEven n d * d) + d := by
      exact_mod_cast two_mul_le_divHalfEven n hd
    rw [hdist, hhalf, div_le_div_iff_of_pos_right (by linarith), abs_le]
    constructor <;> linarith
  · intro htie
    rw [hdist, hhalf, div_left_inj' (by linarith)] at htie
    have hdiv : (n : ℚ) = (n / d : ℕ) * d + (n % d : ℕ) := by
      exact_mod_cast (Nat.div_add_mod' n d).symm
    have hmod : ((n % d : ℕ) : ℚ) < d := by exact_mod_cast Nat.mod_lt n hd
    have hnonneg : (0 : ℚ) ≤ (n % d : ℕ) := by positivity
    -- What is left of the division is half the divisor, whichever neighbour has been chosen.
    have hrest : 2 * ((n % d : ℕ) : ℚ) = d := by
      rcases divHalfEven_eq_or n d with hk | hk
      · rw [hk] at htie
        rcases (abs_eq hpos.le).mp htie with h | h <;> linarith
      · rw [hk, Nat.cast_add, Nat.cast_one] at htie
        rcases (abs_eq hpos.le).mp htie with h | h <;> linarith
    exact Nat.even_iff.mpr (divHalfEven_even_of_tie (by exact_mod_cast hrest))

/-! ## Digits -/

theorem lt_ten_pow_digitCount (n : ℕ) : n < 10 ^ digitCount n :=
  (digitCount_le_iff Nat.length_toDigits_pos).mp le_rfl

theorem ten_pow_le_of_lt_digitCount {n digits : ℕ} (hn : n ≠ 0) (h : digits < digitCount n) :
    10 ^ digits ≤ n := by
  rcases Nat.eq_zero_or_pos digits with rfl | hpos
  · exact Nat.one_le_iff_ne_zero.mpr hn
  · exact Nat.not_lt.mp fun hlt => Nat.not_le.mpr h ((digitCount_le_iff hpos).mpr hlt)

theorem ten_zpow_le_iff {a b : ℤ} : (10 : ℚ) ^ a ≤ 10 ^ b ↔ a ≤ b :=
  zpow_le_zpow_iff_right₀ (by norm_num)

theorem mul_ten_zpow_le_iff {a b : ℚ} {m n : ℤ} :
    a * 10 ^ m ≤ b * 10 ^ n ↔ a ≤ b * 10 ^ (n - m) := by
  rw [zpow_sub₀ (by norm_num : (10 : ℚ) ≠ 0), ← mul_div_assoc,
    le_div_iff₀ (zpow_pos (by norm_num) m)]

/-- The first digit alone decides which powers of ten a number reaches. -/
theorem lt_leadingExponent_iff {coefficient : ℕ} (hne : coefficient ≠ 0) (exponent m : ℤ) :
    m < leadingExponent coefficient exponent ↔
      (10 : ℚ) ^ (m + 1) ≤ coefficient * 10 ^ exponent := by
  have hpos : (0 : ℚ) < 10 ^ exponent := zpow_pos (by norm_num) exponent
  unfold leadingExponent
  constructor
  · intro h
    have hlow : 10 ^ (digitCount coefficient - 1) ≤ coefficient :=
      ten_pow_le_of_lt_digitCount hne (Nat.sub_lt Nat.length_toDigits_pos one_pos)
    have hlow : (10 : ℚ) ^ ((digitCount coefficient - 1 : ℕ) : ℤ) ≤ coefficient := by
      rw [zpow_natCast]
      exact_mod_cast hlow
    have hcount : 0 < digitCount coefficient := Nat.length_toDigits_pos
    calc
      (10 : ℚ) ^ (m + 1) ≤ 10 ^ (((digitCount coefficient - 1 : ℕ) : ℤ) + exponent) :=
        ten_zpow_le_iff.mpr (by omega)
      _ = 10 ^ ((digitCount coefficient - 1 : ℕ) : ℤ) * 10 ^ exponent :=
        zpow_add₀ (by norm_num) _ _
      _ ≤ coefficient * 10 ^ exponent := mul_le_mul_of_nonneg_right hlow hpos.le
  · intro h
    have hhigh : (coefficient : ℚ) < 10 ^ (digitCount coefficient : ℤ) := by
      rw [zpow_natCast]
      exact_mod_cast lt_ten_pow_digitCount coefficient
    have hlt : (10 : ℚ) ^ (m + 1) < 10 ^ ((digitCount coefficient : ℤ) + exponent) := by
      rw [zpow_add₀ (by norm_num : (10 : ℚ) ≠ 0) (digitCount coefficient : ℤ)]
      exact h.trans_lt (mul_lt_mul_of_pos_right hhigh hpos)
    have hlt := (zpow_lt_zpow_iff_right₀ (by norm_num : (1 : ℚ) < 10)).mp hlt
    omega

theorem reaches_iff {bound : ℕ} (hbound : bound ≤ 10 ^ 20) (hpos : 0 < bound) (coefficient : ℕ)
    (exponent : ℤ) :
    reaches bound coefficient exponent = true ↔ (bound : ℚ) ≤ coefficient * 10 ^ exponent := by
  unfold reaches
  split
  · next h =>
      obtain ⟨m, rfl⟩ := Int.eq_ofNat_of_zero_le h
      have hcast : (bound : ℚ) ≤ coefficient * 10 ^ (m : ℤ) ↔ bound ≤ coefficient * 10 ^ m := by
        rw [zpow_natCast]
        exact_mod_cast Iff.rfl
      rw [hcast, Int.toNat_natCast, Bool.and_eq_true, Bool.or_eq_true, decide_eq_true_eq,
        decide_eq_true_eq, decide_eq_true_eq]
      constructor
      · rintro ⟨hcoefficient, hlarge | hreached⟩
        · calc
            bound ≤ 10 ^ 20 := hbound
            _ ≤ 10 ^ m := Nat.pow_le_pow_right (by omega) (by omega)
            _ ≤ coefficient * 10 ^ m := Nat.le_mul_of_pos_left _ hcoefficient
        · exact hreached
      · intro hreached
        refine ⟨Nat.pos_of_ne_zero ?_, .inr hreached⟩
        rintro rfl
        omega
  · next h =>
      obtain ⟨m, rfl⟩ := Int.exists_eq_neg_ofNat (Int.not_le.mp h).le
      have hcast : (bound : ℚ) ≤ coefficient * 10 ^ (-(m : ℤ)) ↔ bound * 10 ^ m ≤ coefficient := by
        rw [zpow_neg, zpow_natCast, ← div_eq_mul_inv, le_div_iff₀ (by positivity)]
        exact_mod_cast Iff.rfl
      rw [hcast, neg_neg, Int.toNat_natCast, Bool.and_eq_true, decide_eq_true_eq,
        decide_eq_true_eq]
      constructor
      · exact fun h => h.2
      · intro hreached
        refine ⟨?_, hreached⟩
        have hpow : 10 ^ m ≤ coefficient := (Nat.le_mul_of_pos_left _ hpos).trans hreached
        exact (Nat.pow_lt_pow_iff_right (by omega)).mp
          (hpow.trans_lt (lt_ten_pow_digitCount coefficient))

/-! ## Rounding to significant digits -/

/-- Rounding leaves alone what has few digits, and otherwise takes the nearest number of units so
large that their count has the wanted digits. -/
theorem roundSignificant_spec (digits coefficient : ℕ) (exponent : ℤ) :
    let rounded := roundSignificant (digits + 1) coefficient exponent
    let units : ℚ := coefficient * 10 ^ (exponent - rounded.2)
    IsNearestEven units rounded.1 ∧ units < 10 ^ (digits + 1) ∧
      (rounded = (coefficient, exponent) ∨ 10 ^ digits ≤ units) := by
  intro rounded units
  by_cases hfew : digitCount coefficient ≤ digits + 1
  · have hrounded : rounded = (coefficient, exponent) := by
      simp [rounded, roundSignificant, Nat.sub_eq_zero_of_le hfew]
    have hunits : units = coefficient := by simp [units, hrounded]
    refine ⟨?_, ?_, .inl hrounded⟩
    · rw [hunits, hrounded]
      exact .natCast coefficient
    · rw [hunits]
      exact_mod_cast (digitCount_le_iff (Nat.succ_pos digits)).mp hfew
  · obtain ⟨surplus, hsurplus⟩ := Nat.exists_eq_add_of_lt (Nat.not_le.mp hfew)
    have hrounded : rounded =
        (divHalfEven coefficient (10 ^ (surplus + 1)), exponent + (surplus + 1 : ℕ)) := by
      have hsub : digitCount coefficient - (digits + 1) = surplus + 1 := by omega
      simp only [rounded, roundSignificant, hsub]
      rfl
    have hunits : units = (coefficient : ℚ) / (10 ^ (surplus + 1) : ℕ) := by
      simp only [units, hrounded]
      rw [sub_add_cancel_left, zpow_neg, zpow_natCast, ← div_eq_mul_inv]
      push_cast
      rfl
    have hpow : (0 : ℚ) < (10 ^ (surplus + 1) : ℕ) := by positivity
    refine ⟨?_, ?_, .inr ?_⟩
    · rw [hunits, hrounded]
      exact isNearestEven_divHalfEven coefficient (by positivity)
    · have hlt := lt_ten_pow_digitCount coefficient
      rw [hsurplus, Nat.add_assoc, Nat.pow_add] at hlt
      rw [hunits, div_lt_iff₀ hpow]
      exact_mod_cast hlt
    · have hne : coefficient ≠ 0 := by
        rintro rfl
        exact hfew (Nat.succ_pos digits)
      have hle : 10 ^ (digits + (surplus + 1)) ≤ coefficient :=
        ten_pow_le_of_lt_digitCount hne (by omega)
      rw [Nat.pow_add] at hle
      rw [hunits, le_div_iff₀ hpow]
      exact_mod_cast hle

/-- Where a unit makes at most a tenth of a step, fewer than `10 ^ (digits + 1)` units make too few
steps. -/
theorem mul_ten_zpow_le_of_neg {x : ℚ} {digits : ℕ} {s : ℤ} (hs : s < 0) (hx : 0 ≤ x)
    (hle : x ≤ 10 ^ (digits + 1)) : x * 10 ^ s ≤ 10 ^ digits := by
  have hstep : (10 : ℚ) ^ s ≤ 10 ^ (-1 : ℤ) := ten_zpow_le_iff.mpr (by omega)
  calc
    x * 10 ^ s ≤ x * 10 ^ (-1 : ℤ) := mul_le_mul_of_nonneg_left hstep hx
    _ ≤ 10 ^ (digits + 1) * 10 ^ (-1 : ℤ) := by gcongr
    _ = 10 ^ digits := by
      rw [pow_succ, zpow_neg_one, mul_inv_cancel_right₀ (by norm_num)]

/-- Where a unit makes at least ten steps, `10 ^ digits` units make enough of them. -/
theorem le_mul_ten_zpow_of_pos {x : ℚ} {digits : ℕ} {s : ℤ} (hs : 0 < s)
    (hle : 10 ^ digits ≤ x) : 10 ^ (digits + 1) ≤ x * 10 ^ s := by
  have hstep : (10 : ℚ) ^ (1 : ℤ) ≤ 10 ^ s := ten_zpow_le_iff.mpr (by omega)
  rw [zpow_one] at hstep
  rw [pow_succ]
  exact mul_le_mul hle hstep (by norm_num) (le_trans (by positivity) hle)

/-- Rounding to `digits + 1` digits reaches an even `bound` of that many digits from half a step
below it on. -/
theorem le_roundSignificant_iff (digits bound : ℕ) (heven : Even bound)
    (hlow : 10 ^ digits < bound) (hhigh : bound ≤ 10 ^ (digits + 1)) (coefficient : ℕ)
    (exponent place : ℤ) :
    (bound : ℚ) * 10 ^ place ≤ (roundSignificant (digits + 1) coefficient exponent).1 *
        10 ^ (roundSignificant (digits + 1) coefficient exponent).2 ↔
      ((bound : ℚ) - 1 / 2) * 10 ^ place ≤ coefficient * 10 ^ exponent := by
  obtain ⟨hnearest, hlt, hcases⟩ := roundSignificant_spec digits coefficient exponent
  generalize roundSignificant (digits + 1) coefficient exponent = rounded at *
  generalize hunits : (coefficient : ℚ) * 10 ^ (exponent - rounded.2) = units at *
  -- Both sides are counted in steps of `10 ^ place`, of which a unit makes `10 ^ s`.
  have hsteps : (coefficient : ℚ) * 10 ^ (exponent - place) =
      units * 10 ^ (rounded.2 - place) := by
    rw [← hunits, mul_assoc, ← zpow_add₀ (by norm_num : (10 : ℚ) ≠ 0), sub_add_sub_cancel]
  rw [mul_ten_zpow_le_iff, mul_ten_zpow_le_iff, hsteps]
  generalize rounded.2 - place = s at *
  have hbelow : (10 : ℚ) ^ digits + 1 ≤ bound := by exact_mod_cast hlow
  have habove : (bound : ℚ) ≤ 10 ^ (digits + 1) := by exact_mod_cast hhigh
  rcases lt_trichotomy s 0 with hs | rfl | hs
  · have hcount : (rounded.1 : ℚ) ≤ 10 ^ (digits + 1) := by
      exact_mod_cast hnearest.le_of_le_natCast (by push_cast; exact hlt.le)
    have hnonneg : 0 ≤ units := hunits ▸ by positivity
    have hrounded := mul_ten_zpow_le_of_neg hs (Nat.cast_nonneg _) hcount
    have hexact := mul_ten_zpow_le_of_neg hs hnonneg hlt.le
    exact iff_of_false (by linarith) (by linarith)
  · rw [zpow_zero, mul_one, mul_one]
    exact_mod_cast hnearest.le_iff_of_even heven
  · rcases hcases with hexact | hmany
    · -- Nothing has been rounded, and the number is a whole count of steps.
      obtain ⟨m, rfl⟩ := Int.eq_ofNat_of_zero_le hs.le
      have hsame : units = coefficient := by rw [← hunits, hexact, sub_self, zpow_zero, mul_one]
      have hwhole := IsNearestEven.natCast (coefficient * 10 ^ m)
      rw [hsame, hexact, zpow_natCast]
      exact_mod_cast hwhole.le_iff_of_even heven
    · have hcount : (10 : ℚ) ^ digits ≤ rounded.1 := by
        exact_mod_cast hnearest.le_of_natCast_le (by push_cast; exact hmany)
      have hrounded := le_mul_ten_zpow_of_pos hs hcount
      have hexact := le_mul_ten_zpow_of_pos hs hmany
      exact iff_of_true (by linarith) (by linarith)

/-! ## Rounding to places -/

theorem isNearestEven_dropDigits (n count : ℕ) :
    IsNearestEven ((n : ℚ) / 10 ^ count) (dropDigits n count) := by
  have hpow : (0 : ℚ) < 10 ^ count := by positivity
  unfold dropDigits
  split
  · next hfew =>
      have hsmall : (n : ℚ) / 10 ^ count < 1 / 2 := by
        have hle : 10 * n ≤ 10 ^ count := by
          calc
            10 * n ≤ 10 * 10 ^ digitCount n := by
              have hlt := lt_ten_pow_digitCount n
              omega
            _ = 10 ^ (digitCount n + 1) := (Nat.pow_succ').symm
            _ ≤ 10 ^ count := Nat.pow_le_pow_right (by omega) hfew
        have hle : (10 : ℚ) * n ≤ 10 ^ count := by exact_mod_cast hle
        rw [div_lt_div_iff₀ hpow (by norm_num)]
        linarith
      have habs : |(n : ℚ) / 10 ^ count - (0 : ℕ)| < 1 / 2 := by
        rw [Nat.cast_zero, sub_zero, abs_of_nonneg (by positivity)]
        exact hsmall
      exact ⟨habs.le, fun htie => absurd htie habs.ne⟩
  · have hnearest := isNearestEven_divHalfEven n (Nat.pow_pos (n := count) (show 0 < 10 by omega))
    push_cast at hnearest
    exact hnearest

/-- Rounding to places takes the nearest count of units, if it has not too many digits. -/
theorem quantize?_spec (digits places coefficient : ℕ) (exponent : ℤ) :
    ∃ units, IsNearestEven (coefficient * 10 ^ exponent * 10 ^ places) units ∧
      quantize? digits places coefficient exponent =
        if digitCount units ≤ digits then some units else none := by
  refine ⟨_, ?_, rfl⟩
  rw [mul_assoc, ← zpow_natCast, ← zpow_add₀ (by norm_num : (10 : ℚ) ≠ 0)]
  split
  · next hshift =>
      obtain ⟨m, hm⟩ := Int.eq_ofNat_of_zero_le hshift
      rw [hm, appendZeros_eq, Int.toNat_natCast, zpow_natCast]
      exact_mod_cast IsNearestEven.natCast (coefficient * 10 ^ m)
  · next hshift =>
      obtain ⟨m, hm⟩ := Int.exists_eq_neg_ofNat (Int.not_le.mp hshift).le
      rw [hm, neg_neg, Int.toNat_natCast, zpow_neg, zpow_natCast, ← div_eq_mul_inv]
      exact isNearestEven_dropDigits coefficient m

end PluralForms
