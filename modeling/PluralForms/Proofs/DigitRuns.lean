import Mathlib.Algebra.Ring.Nat
import Mathlib.Data.List.Induction
import PluralForms.Number.DigitLimit
import PluralForms.Number.Limits
import PluralForms.Text.Classes

/-!
# Runs of decimal digits

What a run of digits is worth when it is put together from two runs, and what the zeros at its end
are worth: nothing but a power of ten.  A power of ten bounds the integers that can be written.
-/

namespace PluralForms.Text

/-- All characters are decimal digits; there may be none. -/
def IsDigitRun (digits : List Char) : Prop :=
  ∀ c ∈ digits, isDigit c = true

theorem isDigitRun_nil : IsDigitRun [] := nofun

theorem IsDigitRun.append {s t : List Char} (hs : IsDigitRun s) (ht : IsDigitRun t) :
    IsDigitRun (s ++ t) := by
  intro c hc
  rcases List.mem_append.mp hc with hc | hc
  · exact hs c hc
  · exact ht c hc

theorem IsDigitRun.of_subset {s t : List Char} (ht : IsDigitRun t) (h : s ⊆ t) : IsDigitRun s :=
  fun c hc => ht c (h hc)

theorem isDigitRun_zeros (count : Nat) : IsDigitRun (List.replicate count '0') := by
  intro c hc
  rw [List.eq_of_mem_replicate hc]
  rfl

theorem isDigitRun_toDigits (n : Nat) : IsDigitRun (Nat.toDigits 10 n) :=
  fun _ hc => Nat.isDigit_of_mem_toDigits (by decide) (by decide) hc

theorem isDigitRun_takeWhile (text : List Char) : IsDigitRun (text.takeWhile isDigit) :=
  List.all_eq_true.mp List.all_takeWhile

/-! ## Values -/

theorem digitsValue_append (s t : List Char) :
    digitsValue (s ++ t) = digitsValue s * 10 ^ t.length + digitsValue t := by
  rw [digitsValue, Nat.ofDigitChars_append, Nat.ofDigitChars_eq_ofDigitChars_zero, Nat.mul_comm]
  rfl

theorem digitsValue_zeros (count : Nat) : digitsValue (List.replicate count '0') = 0 := by
  rw [digitsValue, Nat.ofDigitChars_replicate_zero, Nat.mul_zero]

theorem digitsValue_singleton (c : Char) : digitsValue [c] = c.toNat - 48 := by
  rw [digitsValue, Nat.ofDigitChars_cons, Nat.ofDigitChars_nil, Nat.mul_zero, Nat.zero_add]
  rfl

theorem toNat_of_isDigit {c : Char} (h : isDigit c = true) : 48 ≤ c.toNat ∧ c.toNat ≤ 57 := by
  simp only [isDigit, Bool.and_eq_true, decide_eq_true_eq, Char.le_def, UInt32.le_iff_toNat_le] at h
  exact h

/-- A run is worth less than a one with as many zeros behind it. -/
theorem digitsValue_lt {digits : List Char} (h : IsDigitRun digits) :
    digitsValue digits < 10 ^ digits.length := by
  induction digits with
  | nil => simp
  | cons c rest ih =>
      have hfirst := toNat_of_isDigit (h c List.mem_cons_self)
      have hrest := ih (h.of_subset (List.subset_cons_self c rest))
      have hsplit : digitsValue (c :: rest) =
          digitsValue [c] * 10 ^ rest.length + digitsValue rest := digitsValue_append [c] rest
      have hle : (c.toNat - 48) * 10 ^ rest.length ≤ 9 * 10 ^ rest.length :=
        Nat.mul_le_mul_right _ (by omega)
      rw [hsplit, digitsValue_singleton, List.length_cons, pow_succ]
      omega

/-- A run that does not begin with a zero is worth at least a one with as many zeros behind it. -/
theorem ten_pow_le_digitsValue {c : Char} {rest : List Char} (h : IsDigitRun (c :: rest))
    (hne : c ≠ '0') : 10 ^ rest.length ≤ digitsValue (c :: rest) := by
  have hfirst := toNat_of_isDigit (h c List.mem_cons_self)
  have hzero : c.toNat ≠ 48 := by
    intro hc
    exact hne (Char.toNat_inj.mp hc)
  have hsplit : digitsValue (c :: rest) =
      digitsValue [c] * 10 ^ rest.length + digitsValue rest := digitsValue_append [c] rest
  have hle : 1 * 10 ^ rest.length ≤ (c.toNat - 48) * 10 ^ rest.length :=
    Nat.mul_le_mul_right _ (by omega)
  rw [hsplit, digitsValue_singleton]
  omega

/-! ## Zeros in front -/

theorem digitsValue_withoutLeadingZeros (digits : List Char) :
    digitsValue (withoutLeadingZeros digits) = digitsValue digits := by
  induction digits with
  | nil => rfl
  | cons c rest ih =>
      by_cases hc : c = '0'
      · have hsplit : digitsValue (c :: rest) =
            digitsValue [c] * 10 ^ rest.length + digitsValue rest := digitsValue_append [c] rest
        have hdrop : withoutLeadingZeros (c :: rest) = withoutLeadingZeros rest := by
          simp [withoutLeadingZeros, hc]
        rw [hdrop, ih, hsplit, hc, digitsValue_singleton]
        simp
      · simp [withoutLeadingZeros, hc]

/-- What is left without the zeros in front has at most as many digits as any bound of the value. -/
theorem length_withoutLeadingZeros_le {digits : List Char} (h : IsDigitRun digits) {bound : Nat}
    (hle : digitsValue digits ≤ bound) :
    (withoutLeadingZeros digits).length ≤ (Nat.toDigits 10 bound).length := by
  have hbound : bound < 10 ^ (Nat.toDigits 10 bound).length := by
    have hlt := digitsValue_lt (isDigitRun_toDigits bound)
    rwa [digitsValue_toDigits] at hlt
  have hkept : IsDigitRun (withoutLeadingZeros digits) :=
    h.of_subset (List.dropWhile_sublist _).subset
  cases hdigits : withoutLeadingZeros digits with
  | nil => exact Nat.zero_le _
  | cons c rest =>
      have hne : c ≠ '0' := by
        intro hc
        have hfirst := List.head?_dropWhile_not (· == '0') digits
        rw [← withoutLeadingZeros, hdigits] at hfirst
        simp [hc] at hfirst
      rw [hdigits] at hkept
      have hlow := ten_pow_le_digitsValue hkept hne
      rw [← hdigits, digitsValue_withoutLeadingZeros] at hlow
      have hpow : 10 ^ rest.length < 10 ^ (Nat.toDigits 10 bound).length := by omega
      exact (Nat.pow_lt_pow_iff_right (by omega)).mp hpow

theorem length_withoutLeadingZeros_le_iff {digits : List Char} (h : IsDigitRun digits) {count : Nat}
    (hcount : 0 < count) :
    (withoutLeadingZeros digits).length ≤ count ↔ digitsValue digits < 10 ^ count := by
  have hkept : IsDigitRun (withoutLeadingZeros digits) :=
    h.of_subset (List.dropWhile_sublist _).subset
  constructor
  · intro hle
    calc
      digitsValue digits = digitsValue (withoutLeadingZeros digits) :=
        (digitsValue_withoutLeadingZeros digits).symm
      _ < 10 ^ (withoutLeadingZeros digits).length := digitsValue_lt hkept
      _ ≤ 10 ^ count := Nat.pow_le_pow_right (by omega) hle
  · intro hlt
    have hfew := (Nat.length_toDigits_le_iff (by omega) hcount).mpr hlt
    exact le_trans (length_withoutLeadingZeros_le h le_rfl) hfew

/-! ## Zeros at the end -/

theorem withoutTrailingZeros_append_zero (digits : List Char) :
    withoutTrailingZeros (digits ++ ['0']) = withoutTrailingZeros digits := by
  simp [withoutTrailingZeros]

theorem withoutTrailingZeros_append_of_ne (digits : List Char) {c : Char} (h : c ≠ '0') :
    withoutTrailingZeros (digits ++ [c]) = digits ++ [c] := by
  simp [withoutTrailingZeros, h]

/-- What is taken away is a run of zeros. -/
theorem withoutTrailingZeros_append_zeros (digits : List Char) :
    ∃ count, digits = withoutTrailingZeros digits ++ List.replicate count '0' := by
  induction digits using List.reverseRecOn with
  | nil => exact ⟨0, rfl⟩
  | append_singleton digits c ih =>
      by_cases hc : c = '0'
      · obtain ⟨count, hcount⟩ := ih
        refine ⟨count + 1, ?_⟩
        rw [hc, withoutTrailingZeros_append_zero, List.replicate_succ', ← List.append_assoc,
          ← hcount]
      · exact ⟨0, by rw [withoutTrailingZeros_append_of_ne digits hc, List.replicate_zero,
          List.append_nil]⟩

theorem length_withoutTrailingZeros_le (digits : List Char) :
    (withoutTrailingZeros digits).length ≤ digits.length := by
  obtain ⟨count, hcount⟩ := withoutTrailingZeros_append_zeros digits
  have hlength := congrArg List.length hcount
  rw [List.length_append] at hlength
  omega

theorem digitsValue_eq_withoutTrailingZeros (digits : List Char) :
    digitsValue digits = digitsValue (withoutTrailingZeros digits) *
      10 ^ (digits.length - (withoutTrailingZeros digits).length) := by
  obtain ⟨count, hcount⟩ := withoutTrailingZeros_append_zeros digits
  have hlength : digits.length - (withoutTrailingZeros digits).length = count := by
    have hlength := congrArg List.length hcount
    rw [List.length_append, List.length_replicate] at hlength
    omega
  calc
    digitsValue digits = digitsValue (withoutTrailingZeros digits ++ List.replicate count '0') :=
      congrArg digitsValue hcount
    _ = digitsValue (withoutTrailingZeros digits) * 10 ^ count := by
      rw [digitsValue_append, digitsValue_zeros, List.length_replicate, Nat.add_zero]
    _ = _ := by rw [hlength]

/-- Without the zeros at its end, what remains of a run does not end in a zero. -/
theorem not_ten_dvd_withoutTrailingZeros {digits : List Char} (h : IsDigitRun digits)
    (hne : withoutTrailingZeros digits ≠ []) :
    ¬10 ∣ digitsValue (withoutTrailingZeros digits) := by
  induction digits using List.reverseRecOn with
  | nil => exact absurd rfl hne
  | append_singleton digits c ih =>
      by_cases hc : c = '0'
      · rw [hc, withoutTrailingZeros_append_zero] at hne ⊢
        exact ih (h.of_subset (List.subset_append_left digits [c])) hne
      · have hdigit := toNat_of_isDigit (h c (by simp))
        have hzero : c.toNat ≠ 48 := fun heq => hc (Char.toNat_inj.mp heq)
        rw [withoutTrailingZeros_append_of_ne digits hc, digitsValue_append,
          digitsValue_singleton, List.length_singleton, pow_one]
        omega

end PluralForms.Text

namespace PluralForms

/-! ## Integers that can be written -/

theorem digitCount_le_iff {n digits : Nat} (hdigits : 0 < digits) :
    digitCount n ≤ digits ↔ n < 10 ^ digits :=
  Nat.length_toDigits_le_iff (by omega) hdigits

theorem writeInteger_of_lt {n : Int} (h : n.natAbs < 10 ^ maxTextDigits) :
    writeInteger n = .ok (toString n) :=
  if_pos ((digitCount_le_iff (by decide)).mpr h)

theorem writeInteger_of_le {n : Int} (h : 10 ^ maxTextDigits ≤ n.natAbs) :
    writeInteger n = .error .writing :=
  if_neg (mt (digitCount_le_iff (by decide)).mp (Nat.not_lt.mpr h))

theorem maxInteger_lt_ten_pow_maxTextDigits : maxInteger < 10 ^ maxTextDigits :=
  calc
    maxInteger < 10 ^ 20 := by decide
    _ ≤ 10 ^ maxTextDigits := Nat.pow_le_pow_right (by decide) (by decide)

end PluralForms
