import PluralForms.Number
import PluralForms.Proofs.DecimalTexts

/-!
# Texts of binary numbers

A binary number is written by the digits of its shortest decimal, with a point or a power of ten.
Such a text reads as a decimal again, and though zeros may stand behind its digits the value is the
same.
-/

namespace PluralForms

open Text

def Decimal.magnitude? : Decimal → Option ℚ
  | .finite _ coefficient exponent => some ((coefficient : ℚ) * 10 ^ exponent)
  | _ => none

namespace Decimal

open DecimalText

/-! ## Reading -/

/-- The characters that finite numbers are written with. -/
def IsNotation (c : Char) : Prop :=
  isDigit c = true ∨ c ∈ ['.', 'e', '+', '-']

theorem IsNotation.plain {c : Char} (h : IsNotation c) :
    isSpace c = false ∧ (c != '_') = true ∧ asciiDigit c = c := by
  rcases h with h | h
  · have hrange := toNat_of_isDigit h
    refine ⟨?_, ?_, asciiDigit_of_ascii (by omega)⟩
    · simp only [isSpace, Bool.or_eq_false_iff, Bool.and_eq_false_iff, decide_eq_false_iff_not,
        beq_eq_false_iff_ne]
      omega
    · rw [bne_iff_ne]
      rintro rfl
      exact absurd h (by decide)
  · simp only [List.mem_cons, List.not_mem_nil, or_false] at h
    rcases h with rfl | rfl | rfl | rfl <;> decide

theorem trim_eq_self {chars : List Char} (h : ∀ c ∈ chars, isSpace c = false) :
    trim chars = chars := by
  have hdrop : ∀ {list : List Char}, (∀ c ∈ list, isSpace c = false) →
      list.dropWhile isSpace = list := by
    intro list hlist
    cases list with
    | nil => rfl
    | cons c rest => simp [hlist c List.mem_cons_self]
  rw [trim, hdrop h, hdrop (by simpa using h), List.reverse_reverse]

theorem ofText?_of_isNotation {chars : List Char} (h : ∀ c ∈ chars, IsNotation c) :
    ofText? (String.ofList chars) = ofChars? chars := by
  have htrim := trim_eq_self fun c hc => (h c hc).plain.1
  have hfilter : chars.filter (· != '_') = chars :=
    List.filter_eq_self.mpr fun c hc => (h c hc).plain.2.1
  have hmap : chars.map asciiDigit = chars :=
    (List.map_congr_left fun c hc => (h c hc).plain.2.2).trans (List.map_id chars)
  rw [ofText?, String.toList_ofList, htrim, hfilter, hmap]

inductive ExponentText : List Char → ℤ → Prop where
  | absent : ExponentText [] 0
  | negative {digits} (hne : digits ≠ []) (hrun : IsDigitRun digits) :
      ExponentText ('e' :: '-' :: digits) (-digitsValue digits)
  | positive {digits} (hne : digits ≠ []) (hrun : IsDigitRun digits) :
      ExponentText ('e' :: '+' :: digits) (digitsValue digits)

theorem ExponentText.ahead {marked : List Char} {exponent : ℤ} (h : ExponentText marked exponent) :
    Ahead (fun c => isDigit c = false) marked := by
  cases h with
  | absent => exact ahead_nil _
  | negative _ _ => exact ahead_cons.mpr (by decide)
  | positive _ _ => exact ahead_cons.mpr (by decide)

theorem ExponentText.isNotation {marked : List Char} {exponent : ℤ}
    (h : ExponentText marked exponent) : ∀ c ∈ marked, IsNotation c := by
  have hmarks : IsNotation 'e' ∧ IsNotation '-' ∧ IsNotation '+' := by
    simp [IsNotation]
  obtain ⟨he, hminus, hplus⟩ := hmarks
  cases h with
  | absent => simp
  | negative _ hrun =>
      exact List.forall_mem_cons.mpr
        ⟨he, List.forall_mem_cons.mpr ⟨hminus, fun c hc => .inl (hrun c hc)⟩⟩
  | positive _ hrun =>
      exact List.forall_mem_cons.mpr
        ⟨he, List.forall_mem_cons.mpr ⟨hplus, fun c hc => .inl (hrun c hc)⟩⟩

theorem ExponentText.read {marked : List Char} {exponent : ℤ} (h : ExponentText marked exponent) :
    marked = [] ∧ exponent = 0 ∨
      ∃ chars, marked = 'e' :: chars ∧ readExponent? chars = some exponent := by
  cases h with
  | absent => exact .inl ⟨rfl, rfl⟩
  | negative hne hrun =>
      have hall := List.all_eq_true.mpr hrun
      exact .inr ⟨_, rfl, by simp [readExponent?, readSign, hne, hall]⟩
  | positive hne hrun =>
      have hall := List.all_eq_true.mpr hrun
      exact .inr ⟨_, rfl, by simp [readExponent?, readSign, hne, hall]⟩

inductive FiniteText : List Char → ℕ → ℤ → Prop where
  | intro {whole pointed marked fraction exponent} (hne : whole ≠ []) (hwhole : IsDigitRun whole)
      (hpointed : PartText (· == '.') pointed fraction) (hmarked : ExponentText marked exponent) :
      FiniteText (whole ++ (pointed ++ marked)) (digitsValue (whole ++ fraction.getD []))
        (exponent - (fraction.getD []).length)

theorem readFinite?_complete (negative : Bool) {chars : List Char} {coefficient : ℕ} {exponent : ℤ}
    (h : FiniteText chars coefficient exponent) :
    readFinite? negative chars = some (.finite negative coefficient exponent) := by
  cases h with
  | @intro whole pointed marked fraction exponent hne hwhole hpointed hmarked =>
      have hmark := hmarked.ahead
      have hrest : Ahead (fun c => isDigit c = false) (pointed ++ marked) :=
        hpointed.ahead (fun c hc => by rw [eq_of_beq hc]; decide) hmark
      unfold readFinite?
      simp only [takeWhile_run hwhole hrest, dropWhile_run hwhole hrest]
      cases hpointed with
      | absent =>
          rcases hmarked.read with ⟨rfl, rfl⟩ | ⟨more, rfl, hread⟩
          · simp [hne]
          · simp [hne, hread]
      | @present point digits hpoint _ hrun =>
          have hpoint : point = '.' := eq_of_beq hpoint
          subst hpoint
          simp only [List.cons_append, takeWhile_run hrun hmark, dropWhile_run hrun hmark]
          rcases hmarked.read with ⟨rfl, rfl⟩ | ⟨more, rfl, hread⟩
          · simp [hne]
          · simp [hne, hread]

theorem FiniteText.exists_cons {chars : List Char} {coefficient : ℕ} {exponent : ℤ}
    (h : FiniteText chars coefficient exponent) :
    ∃ digit rest, chars = digit :: rest ∧ isDigit digit = true := by
  cases h with
  | intro hne hwhole hpointed hmarked =>
      obtain ⟨digit, digits, rfl⟩ := List.exists_cons_of_ne_nil hne
      exact ⟨digit, _, rfl, hwhole digit List.mem_cons_self⟩

/-- A number with its sign is none of the special values. -/
theorem ofChars?_complete (negative : Bool) {chars : List Char} {coefficient : ℕ} {exponent : ℤ}
    (h : FiniteText chars coefficient exponent) :
    ofChars? ((if negative then ['-'] else []) ++ chars) =
      some (.finite negative coefficient exponent) := by
  have hread := readFinite?_complete negative h
  obtain ⟨digit, rest, rfl, hdigit⟩ := h.exists_cons
  have hrange := toNat_of_isDigit hdigit
  have hne : ∀ {c : Char}, isDigit c = false → digit ≠ c := by
    rintro c hc rfl
    rw [hc] at hdigit
    cases hdigit
  have hsign : readSign ((if negative then ['-'] else []) ++ digit :: rest) =
      (negative, digit :: rest) := by
    cases negative with
    | true => rfl
    | false => simp [readSign, hne (c := '-') (by decide), hne (c := '+') (by decide)]
  have hlower : digit.toLower = digit := by
    have hupper : ¬(digit.val ≥ 'A'.val ∧ digit.val ≤ 'Z'.val) := by
      simp only [ge_iff_le, UInt32.le_iff_toNat_le]
      have hval : digit.val.toNat = digit.toNat := rfl
      have hA : 'A'.val.toNat = 65 := rfl
      omega
    exact dif_neg hupper
  unfold ofChars?
  rw [hsign]
  simp only [List.map_cons, hlower]
  split
  · next h => exact absurd (List.cons.inj h).1 (hne (by decide))
  · next h => exact absurd (List.cons.inj h).1 (hne (by decide))
  · next h => exact absurd (List.cons.inj h).1 (hne (by decide))
  · next h => exact absurd (List.cons.inj h).1 (hne (by decide))
  · exact hread

theorem FiniteText.isNotation {chars : List Char} {coefficient : ℕ} {exponent : ℤ}
    (h : FiniteText chars coefficient exponent) : ∀ c ∈ chars, IsNotation c := by
  cases h with
  | @intro whole pointed marked fraction exponent hne hwhole hpointed hmarked =>
      have hpart : ∀ c ∈ pointed, IsNotation c := by
        cases hpointed with
        | absent => simp
        | present hpoint _ hrun =>
            refine List.forall_mem_cons.mpr ⟨?_, fun c hc => .inl (hrun c hc)⟩
            rw [eq_of_beq hpoint]
            simp [IsNotation]
      simp only [List.forall_mem_append]
      exact ⟨fun c hc => .inl (hwhole c hc), hpart, hmarked.isNotation⟩

theorem ofText?_complete (negative : Bool) {chars : List Char} {coefficient : ℕ} {exponent : ℤ}
    (h : FiniteText chars coefficient exponent) :
    ofText? (String.ofList ((if negative then ['-'] else []) ++ chars)) =
      some (.finite negative coefficient exponent) := by
  rw [ofText?_of_isNotation, ofChars?_complete negative h]
  rw [List.forall_mem_append]
  refine ⟨?_, h.isNotation⟩
  cases negative <;> simp [IsNotation]

end Decimal

/-! ## Writing -/

namespace Binary64

open Decimal DecimalText

theorem withPoint_parts (digits : List Char) (hrun : IsDigitRun digits) (before : ℕ) :
    ∃ pointed fraction, withPoint digits before = digits.take before ++ pointed ∧
      PartText (· == '.') pointed fraction ∧ fraction.getD [] = digits.drop before := by
  unfold withPoint
  split
  · next h =>
      refine ⟨'.' :: digits.drop before, some (digits.drop before), rfl,
        .present (beq_self_eq_true '.') ?_ (hrun.of_subset (List.drop_subset _ _)), rfl⟩
      simpa using h
  · next h =>
      have hle := Nat.not_lt.mp h
      refine ⟨[], none, ?_, .absent, ?_⟩
      · rw [List.take_of_length_le hle, List.append_nil]
      · rw [List.drop_eq_nil_iff.mpr hle, Option.getD_none]

theorem finiteText_withPoint {digits marked : List Char} {exponent : ℤ} (hne : digits ≠ [])
    (hrun : IsDigitRun digits) (before : ℕ) (hbefore : 0 < before)
    (hmarked : ExponentText marked exponent) :
    FiniteText (withPoint digits before ++ marked) (digitsValue digits)
      (exponent - (digits.length - before : ℕ)) := by
  obtain ⟨pointed, fraction, htext, hpointed, hfraction⟩ := withPoint_parts digits hrun before
  have hwhole : digits.take before ≠ [] := by
    simp [hne, hbefore.ne']
  have hparts := FiniteText.intro hwhole (hrun.of_subset (List.take_subset _ _)) hpointed hmarked
  rw [hfraction, List.take_append_drop, List.length_drop, ← List.append_assoc, ← htext] at hparts
  exact hparts

/-- Exponents are written with their sign, and perhaps with zeros in front. -/
theorem exponentText_signed (exponent : ℤ) (zeros : ℕ) :
    ExponentText ('e' :: (if exponent < 0 then '-' else '+') ::
      (List.replicate zeros '0' ++ Nat.toDigits 10 exponent.natAbs)) exponent := by
  have hrun := (isDigitRun_zeros zeros).append (isDigitRun_toDigits exponent.natAbs)
  have hne : List.replicate zeros '0' ++ Nat.toDigits 10 exponent.natAbs ≠ [] := by
    simp [List.ne_nil_of_length_pos Nat.length_toDigits_pos]
  have hvalue : digitsValue (List.replicate zeros '0' ++ Nat.toDigits 10 exponent.natAbs) =
      exponent.natAbs := by
    rw [digitsValue_append, digitsValue_zeros, digitsValue_toDigits, Nat.zero_mul, Nat.zero_add]
  by_cases hsign : exponent < 0
  · have htext := ExponentText.negative hne hrun
    rw [hvalue, show -(exponent.natAbs : ℤ) = exponent by omega] at htext
    rw [if_pos hsign]
    exact htext
  · have htext := ExponentText.positive hne hrun
    rw [hvalue, show (exponent.natAbs : ℤ) = exponent by omega] at htext
    rw [if_neg hsign]
    exact htext

theorem finiteText_below_point {digits : List Char} (hne : digits ≠ []) (hrun : IsDigitRun digits)
    (zeros : ℕ) :
    FiniteText ('0' :: '.' :: (List.replicate zeros '0' ++ digits)) (digitsValue digits)
      (-(zeros + digits.length : ℕ)) := by
  have hfraction := (isDigitRun_zeros zeros).append hrun
  have htext := FiniteText.intro (List.cons_ne_nil '0' []) (isDigitRun_zeros 1)
    (.present (beq_self_eq_true '.') (by simp [hne]) hfraction) .absent
  have hvalue : digitsValue (['0'] ++ (List.replicate zeros '0' ++ digits)) = digitsValue digits := by
    rw [← List.append_assoc, digitsValue_append,
      show ['0'] ++ List.replicate zeros '0' = List.replicate (zeros + 1) '0' from rfl,
      digitsValue_zeros, Nat.zero_mul, Nat.zero_add]
  rw [List.append_nil, Option.getD_some, hvalue, List.length_append, List.length_replicate,
    zero_sub] at htext
  exact htext

theorem finiteText_above_point {digits : List Char} (hne : digits ≠ []) (hrun : IsDigitRun digits)
    (zeros : ℕ) :
    FiniteText (digits ++ List.replicate zeros '0' ++ ['.', '0'])
      (digitsValue digits * 10 ^ (zeros + 1)) (-1) := by
  have hwhole : digits ++ List.replicate zeros '0' ≠ [] := by simp [hne]
  have htext := FiniteText.intro hwhole (hrun.append (isDigitRun_zeros zeros))
    (.present (beq_self_eq_true '.') (List.cons_ne_nil '0' []) (isDigitRun_zeros 1)) .absent
  have hvalue : digitsValue (digits ++ List.replicate zeros '0' ++ ['0']) =
      digitsValue digits * 10 ^ (zeros + 1) := by
    rw [List.append_assoc, ← List.replicate_succ', digitsValue_append, digitsValue_zeros,
      List.length_replicate, Nat.add_zero]
  rw [List.append_nil, Option.getD_some, hvalue] at htext
  exact htext

/-- The notation of a number can be read, and what is read has the same value. -/
theorem finiteText_finiteChars (style : FloatStyle) {digits : List Char} (hne : digits ≠ [])
    (hrun : IsDigitRun digits) (power : ℤ) :
    ∃ coefficient exponent, FiniteText (finiteChars style digits power) coefficient exponent ∧
      (coefficient : ℚ) * 10 ^ exponent = digitsValue digits * 10 ^ power := by
  have hlength := List.length_pos_iff.mpr hne
  unfold finiteChars
  dsimp only
  split
  · split
    · split
      · have htext := finiteText_withPoint hne hrun (digits.length + power - 1 + 1).toNat (by omega)
          .absent
        rw [List.append_nil] at htext
        refine ⟨_, _, htext, ?_⟩
        congr 2
        omega
      · refine ⟨_, _, finiteText_below_point hne hrun _, ?_⟩
        congr 2
        omega
    · next hpower =>
        obtain ⟨zeros, rfl⟩ := Int.eq_ofNat_of_zero_le (Int.not_lt.mp hpower)
        refine ⟨_, _, finiteText_above_point hne hrun _, ?_⟩
        rw [Int.toNat_natCast, zpow_neg_one, zpow_natCast]
        push_cast
        rw [pow_succ, ← mul_assoc, mul_inv_cancel_right₀ (by norm_num)]
  · have htext := finiteText_withPoint hne hrun 1 one_pos
      (exponentText_signed (digits.length + power - 1)
        (style.exponentWidth - (Nat.toDigits 10 (digits.length + power - 1 : ℤ).natAbs).length))
    refine ⟨_, _, by simpa only [List.append_assoc, List.cons_append] using htext, ?_⟩
    congr 2
    omega

/-- Reading the text of a binary number gives its shortest decimal, up to zeros at the end. -/
theorem magnitude?_ofText? (b : Binary64) :
    (ofText? b.text).bind magnitude? = b.toDecimal.magnitude? := by
  cases b with
  | finite negative mantissa exponent =>
      obtain ⟨coefficient, power, htext, hvalue⟩ := finiteText_finiteChars style
        (List.ne_nil_of_length_pos Nat.length_toDigits_pos)
        (isDigitRun_toDigits (shortest mantissa exponent).1) (shortest mantissa exponent).2
      rw [digitsValue_toDigits] at hvalue
      rw [text, ofText?_complete negative htext]
      exact congrArg some hvalue
  | infinite negative =>
      cases negative <;> decide
  | nan => decide

end Binary64

end PluralForms
