/-!
# Rounding decimal coefficients

A coefficient is scaled by powers of ten; where digits are lost, the result is the nearest
integer, and a tie goes to the even neighbour.
-/

namespace PluralForms

/-- How many decimal digits a number is written with; zero takes one. -/
def digitCount (n : Nat) : Nat :=
  (Nat.toDigits 10 n).length

/-- The integer nearest to `n / d`, the even one of two. -/
def divHalfEven (n d : Nat) : Nat :=
  if d < 2 * (n % d) ∨ (2 * (n % d) = d ∧ n / d % 2 = 1) then n / d + 1 else n / d

theorem two_mul_divHalfEven_le (n d : Nat) : 2 * (divHalfEven n d * d) ≤ 2 * n + d := by
  have hdiv := Nat.div_add_mod n d
  have hcomm := Nat.mul_comm d (n / d)
  unfold divHalfEven
  split
  · have hmul := Nat.succ_mul (n / d) d
    rw [Nat.succ_eq_add_one] at hmul
    omega
  · omega

theorem two_mul_le_divHalfEven {d : Nat} (n : Nat) (hd : 0 < d) :
    2 * n ≤ 2 * (divHalfEven n d * d) + d := by
  have hdiv := Nat.div_add_mod n d
  have hcomm := Nat.mul_comm d (n / d)
  have hlt := Nat.mod_lt n hd
  unfold divHalfEven
  split
  · have hmul := Nat.succ_mul (n / d) d
    rw [Nat.succ_eq_add_one] at hmul
    omega
  · omega

theorem divHalfEven_even_of_tie {n d : Nat} (h : 2 * (n % d) = d) : divHalfEven n d % 2 = 0 := by
  unfold divHalfEven
  split
  · omega
  · omega

def appendZeros (n count : Nat) : Nat :=
  if n = 0 then 0 else n * Nat.pow 10 count

theorem appendZeros_eq (n count : Nat) : appendZeros n count = n * Nat.pow 10 count := by
  unfold appendZeros
  split
  · rename_i h
    simp [h]
  · rfl

/-- The number without its last `count` digits, rounded.  With fewer digits than that it is less
than a tenth, so nothing remains. -/
def dropDigits (n count : Nat) : Nat :=
  if digitCount n < count then 0 else divHalfEven n (Nat.pow 10 count)

/-- The coefficient and exponent of `coefficient · 10 ^ exponent` rounded to a number of
significant digits. -/
def roundSignificant (digits coefficient : Nat) (exponent : Int) : Nat × Int :=
  let surplus := digitCount coefficient - digits
  if surplus = 0 then (coefficient, exponent)
  else (divHalfEven coefficient (Nat.pow 10 surplus), exponent + surplus)

def leadingExponent (coefficient : Nat) (exponent : Int) : Int :=
  digitCount coefficient + exponent - 1

/-- Whether `coefficient · 10 ^ exponent` is at least `bound`, for bounds of up to twenty digits.
Very large and very small powers of ten are decided by the number of digits alone. -/
def reaches (bound coefficient : Nat) (exponent : Int) : Bool :=
  if 0 ≤ exponent then
    0 < coefficient && (20 ≤ exponent || bound ≤ coefficient * Nat.pow 10 exponent.toNat)
  else
    (-exponent).toNat < digitCount coefficient &&
      bound * Nat.pow 10 (-exponent).toNat ≤ coefficient

/-- The units of `10 ^ -places` nearest to `coefficient · 10 ^ exponent`; none if they have more
than `digits` digits. -/
def quantize? (digits places coefficient : Nat) (exponent : Int) : Option Nat :=
  let shift := exponent + places
  let units :=
    if 0 ≤ shift then appendZeros coefficient shift.toNat
    else dropDigits coefficient (-shift).toNat
  if digitCount units ≤ digits then some units else none

end PluralForms
