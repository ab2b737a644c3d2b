import PluralForms.Proofs.DisplayedNumber
import PluralForms.Proofs.HalfEven
import PluralForms.Rule.Condition.Truth

/-!
# What conditions mean

Relations and conditions are given a meaning over the rational numbers, in which nothing is ever
rounded and every remainder exists.  For the operands of a displayed number the evaluation decides
just this meaning: such a number has so few digits that working with `remainderDigits` of them
loses none.
-/

namespace PluralForms

/-! ## Meaning -/

/-- An integer belongs to one of the ranges. -/
def Comparison.Covers (comparison : Comparison) (k : ℕ) : Prop :=
  ∃ r ∈ comparison.ranges, r.lower ≤ k ∧ k ≤ r.upper

/-- A number lies between the bounds of one of the ranges. -/
def Comparison.Encloses (comparison : Comparison) (q : ℚ) : Prop :=
  ∃ r ∈ comparison.ranges, (r.lower : ℚ) ≤ q ∧ q ≤ r.upper

/-- What remains of `q` when multiples of `m` are taken away. -/
structure IsRemainder (m : ℕ) (q r : ℚ) : Prop where
  nonneg : 0 ≤ r
  lt : r < m
  integral : ∃ z : ℤ, (q - r) / m = z

def Comparison.Matches (comparison : Comparison) (q : ℚ) : Prop :=
  match comparison.operator with
  | .within => comparison.Encloses q
  | .equality | .membership => ∃ k : ℕ, comparison.Covers k ∧ q = k

/-- The numbers that fit a comparison up to multiples of `m`. -/
def Comparison.MatchesModulo (comparison : Comparison) (m : ℕ) (q : ℚ) : Prop :=
  match comparison.operator with
  | .within => ∃ r, IsRemainder m q r ∧ comparison.Encloses r
  | .equality | .membership => ∃ a k : ℕ, k < m ∧ comparison.Covers k ∧ q = a * m + k

/-- Whether the operand of a relation fits its comparison, negation left aside. -/
def Relation.Matches (relation : Relation) (x : Operands) : Prop :=
  match relation.modulus with
  | none => relation.comparison.Matches (x.get relation.operand).value
  | some modulus =>
      relation.comparison.MatchesModulo modulus.value (x.get relation.operand).value

def Relation.Holds (relation : Relation) (x : Operands) : Prop :=
  Xor (relation.Matches x) (relation.negated = true)

/-- Some group holds as a whole, or there is no group. -/
def Condition.Holds (condition : Condition) (x : Operands) : Prop :=
  condition = .always ∨ ∃ group ∈ condition.groups, ∀ relation ∈ group, relation.Holds x

/-! ## Remainders -/

namespace IsRemainder

variable {m : ℕ} {q r s : ℚ}

/-- The multiples that two remainders differ by are fewer than one. -/
theorem unique (hr : IsRemainder m q r) (hs : IsRemainder m q s) : r = s := by
  have hm : (0 : ℚ) < m := hr.nonneg.trans_lt hr.lt
  obtain ⟨y, hy⟩ := hr.integral
  obtain ⟨z, hz⟩ := hs.integral
  have hdiff : s - r = (y - z : ℤ) * m := by
    rw [div_eq_iff hm.ne'] at hy hz
    push_cast
    linarith
  -- Both remainders lie in `0 ≤ · < m`, so the integer `y - z` lies between -1 and 1.
  have habove : ((y - z : ℤ) : ℚ) < 1 := by
    have hlt : ((y - z : ℤ) : ℚ) * m < 1 * m := by linarith [hs.lt, hr.nonneg]
    exact lt_of_mul_lt_mul_right hlt hm.le
  have hbelow : (-1 : ℚ) < ((y - z : ℤ) : ℚ) := by
    have hlt : (-1 : ℚ) * m < ((y - z : ℤ) : ℚ) * m := by linarith [hr.lt, hs.nonneg]
    exact lt_of_mul_lt_mul_right hlt hm.le
  have hzero : y - z = 0 := by
    have habove : y - z < 1 := by exact_mod_cast habove
    have hbelow : -1 < y - z := by exact_mod_cast hbelow
    omega
  rw [hzero] at hdiff
  push_cast at hdiff
  linarith

/-- A number that is not negative has multiples to take away, not to add. -/
theorem exists_eq (h : IsRemainder m q r) (hq : 0 ≤ q) : ∃ a : ℕ, q = a * m + r := by
  have hm : (0 : ℚ) < m := h.nonneg.trans_lt h.lt
  obtain ⟨z, hz⟩ := h.integral
  rw [div_eq_iff hm.ne'] at hz
  have hnonneg : 0 ≤ z := by
    have hlt : (-1 : ℚ) * m < z * m := by linarith [h.lt]
    have hlt : (-1 : ℚ) < z := lt_of_mul_lt_mul_right hlt hm.le
    have hlt : -1 < z := by exact_mod_cast hlt
    omega
  obtain ⟨a, rfl⟩ := Int.eq_ofNat_of_zero_le hnonneg
  refine ⟨a, ?_⟩
  push_cast at hz
  linarith

theorem of_eq {a : ℕ} (hm : 0 < m) (hr : 0 ≤ r) (hlt : r < m) (h : q = a * m + r) :
    IsRemainder m q r where
  nonneg := hr
  lt := hlt
  integral := by
    refine ⟨a, ?_⟩
    have hm : (m : ℚ) ≠ 0 := by positivity
    rw [div_eq_iff hm, h]
    push_cast
    ring

end IsRemainder

theorem Comparison.matches_remainder_iff (comparison : Comparison) {m : ℕ} {q r : ℚ}
    (hr : IsRemainder m q r) (hq : 0 ≤ q) :
    comparison.Matches r ↔ comparison.MatchesModulo m q := by
  unfold Matches MatchesModulo
  cases comparison.operator with
  | within =>
      constructor
      · intro h
        exact ⟨r, hr, h⟩
      · rintro ⟨s, hs, h⟩
        rwa [hr.unique hs]
  | equality | membership =>
      constructor
      · rintro ⟨k, hk, rfl⟩
        obtain ⟨a, ha⟩ := hr.exists_eq hq
        exact ⟨a, k, by exact_mod_cast hr.lt, hk, ha⟩
      · rintro ⟨a, k, hlt, hk, ha⟩
        have hs : IsRemainder m q k :=
          .of_eq (by omega) (by positivity) (by exact_mod_cast hlt) ha
        exact ⟨k, hk, hr.unique hs⟩

/-! ## Numbers with places -/

namespace FixedPoint

theorem scale_eq (x : FixedPoint) : x.scale = 10 ^ x.places := rfl

theorem scale_pos (x : FixedPoint) : 0 < x.scale := by
  rw [scale_eq]
  positivity

theorem value_eq (x : FixedPoint) : x.value = x.units / x.scale := by
  rw [value, scale_eq]
  push_cast
  rfl

theorem value_nonneg (x : FixedPoint) : 0 ≤ x.value := by
  rw [value_eq]
  positivity

theorem isBetween_iff (x : FixedPoint) (lower upper : ℕ) :
    x.isBetween lower upper = true ↔ (lower : ℚ) ≤ x.value ∧ x.value ≤ upper := by
  have hscale : (0 : ℚ) < x.scale := by exact_mod_cast x.scale_pos
  rw [value_eq, le_div_iff₀ hscale, div_le_iff₀ hscale, isBetween, Bool.and_eq_true,
    decide_eq_true_eq, decide_eq_true_eq]
  exact_mod_cast Iff.rfl

theorem isIntegral_iff (x : FixedPoint) : x.isIntegral = true ↔ ∃ k : ℕ, x.value = k := by
  have hscale : (x.scale : ℚ) ≠ 0 := by exact_mod_cast x.scale_pos.ne'
  rw [isIntegral, beq_iff_eq, ← Nat.dvd_iff_mod_eq_zero]
  constructor
  · rintro ⟨k, hk⟩
    refine ⟨k, ?_⟩
    rw [value_eq, hk, div_eq_iff hscale]
    push_cast
    ring
  · rintro ⟨k, hk⟩
    rw [value_eq, div_eq_iff hscale] at hk
    exact ⟨k, by rw [Nat.mul_comm]; exact_mod_cast hk⟩

def mod (x : FixedPoint) (m : ℕ) : FixedPoint :=
  ⟨x.units % (m * x.scale), x.places⟩

theorem isRemainder_mod (x : FixedPoint) {m : ℕ} (hm : 0 < m) :
    IsRemainder m x.value (x.mod m).value := by
  have hscale : (0 : ℚ) < x.scale := by exact_mod_cast x.scale_pos
  have hvalue : (x.mod m).value = (x.units % (m * x.scale) : ℕ) / x.scale := value_eq (x.mod m)
  apply IsRemainder.of_eq hm (value_nonneg _)
  · rw [hvalue, div_lt_iff₀ hscale]
    exact_mod_cast Nat.mod_lt x.units (Nat.mul_pos hm x.scale_pos)
  · have hunits : (x.units : ℚ) = (x.units / (m * x.scale) : ℕ) * (m * x.scale : ℕ) +
        (x.units % (m * x.scale) : ℕ) := by
      exact_mod_cast (Nat.div_add_mod' x.units (m * x.scale)).symm
    rw [hvalue, value_eq, div_eq_iff hscale.ne', add_mul, div_mul_cancel₀ _ hscale.ne', mul_assoc]
    rwa [Nat.cast_mul] at hunits

/-! ### Working with enough digits -/

theorem roundUnits_of_le {digits units : ℕ} (h : digitCount units ≤ digits) :
    roundUnits digits units = units := by
  simp [roundUnits, roundSignificant, Nat.sub_eq_zero_of_le h]

/-- As many digits as the units have are enough for any division. -/
theorem remainder?_eq_mod {digits : ℕ} (x : FixedPoint) (m : ℕ) (hdigits : 0 < digits)
    (h : x.units < 10 ^ digits) : x.remainder? digits m = some (x.mod m) := by
  have hquotient : digitCount (x.units / (m * x.scale)) ≤ digits :=
    (digitCount_le_iff hdigits).mpr (lt_of_le_of_lt (Nat.div_le_self _ _) h)
  have hremainder : digitCount (x.units % (m * x.scale)) ≤ digits :=
    (digitCount_le_iff hdigits).mpr (lt_of_le_of_lt (Nat.mod_le _ _) h)
  rw [remainder?, if_neg (by omega), roundUnits_of_le hremainder, mod]

end FixedPoint

theorem Comparison.accepts_iff (comparison : Comparison) (x : FixedPoint) :
    comparison.accepts x = true ↔ comparison.Matches x.value := by
  have hencloses : (comparison.ranges.any fun r => x.isBetween r.lower r.upper) = true ↔
      comparison.Encloses x.value := by
    simp only [List.any_eq_true, FixedPoint.isBetween_iff, Encloses]
  have hcovers : (x.isIntegral = true ∧ comparison.Encloses x.value) ↔
      ∃ k : ℕ, comparison.Covers k ∧ x.value = k := by
    rw [FixedPoint.isIntegral_iff]
    constructor
    · rintro ⟨⟨k, hk⟩, r, hr, hlower, hupper⟩
      rw [hk] at hlower hupper
      exact ⟨k, ⟨r, hr, by exact_mod_cast hlower, by exact_mod_cast hupper⟩, hk⟩
    · rintro ⟨k, ⟨r, hr, hlower, hupper⟩, hk⟩
      rw [hk]
      exact ⟨⟨k, rfl⟩, r, hr, by exact_mod_cast hlower, by exact_mod_cast hupper⟩
  cases comparison with
  | equality value =>
      rw [Matches, operator, ← hcovers, ← hencloses]
      simp [accepts, ranges, Interval.single]
  | membership list =>
      rw [Matches, operator, ← hcovers, ← hencloses]
      simp [accepts, ranges]
  | within list =>
      rw [Matches, operator, ← hencloses]
      simp [accepts, ranges]

/-! ## Evaluation -/

namespace Operands.Coherent

variable {x : Operands}

theorem units_n_lt (h : x.Coherent) : x.n.units < 10 ^ remainderDigits := by
  have hpow : 10 ^ x.v ≤ 10 ^ 18 := Nat.pow_le_pow_right (by omega) h.v_le
  have hi : x.i < 10 ^ 20 := lt_of_le_of_lt h.i_le (by decide)
  calc
    x.n.units = x.i * 10 ^ x.v + x.f := h.units_n
    _ < x.i * 10 ^ x.v + 10 ^ x.v := Nat.add_lt_add_left h.f_lt _
    _ = (x.i + 1) * 10 ^ x.v := by ring
    _ ≤ 10 ^ 20 * 10 ^ 18 := Nat.mul_le_mul hi hpow
    _ ≤ 10 ^ remainderDigits := by decide

theorem remainder?_eq (h : x.Coherent) (operand : Operand) (modulus : Modulus) :
    x.remainder? operand modulus = some ((x.get operand).mod modulus.value) := by
  unfold remainder?
  split
  next hn =>
    rw [hn]
    exact x.n.remainder?_eq_mod modulus.value (by decide) h.units_n_lt
  next hn =>
    cases operand with
    | n => exact absurd rfl hn
    | _ => simp [get, FixedPoint.mod, FixedPoint.ofNat, FixedPoint.scale]

end Operands.Coherent

def Relation.subject (relation : Relation) (x : Operands) : FixedPoint :=
  match relation.modulus with
  | none => x.get relation.operand
  | some modulus => (x.get relation.operand).mod modulus.value

def Relation.truth (relation : Relation) (x : Operands) : Bool :=
  relation.comparison.accepts (relation.subject x) != relation.negated

def Condition.truth (condition : Condition) (x : Operands) : Bool :=
  condition.isAlways || condition.groups.any fun group => group.all fun r => r.truth x

theorem Relation.truth_iff (relation : Relation) (x : Operands) :
    relation.truth x = true ↔ relation.Holds x := by
  have hmatches : relation.comparison.accepts (relation.subject x) = true ↔ relation.Matches x := by
    rw [Comparison.accepts_iff, subject, Matches]
    split
    · rfl
    next modulus _ =>
      exact relation.comparison.matches_remainder_iff
        (FixedPoint.isRemainder_mod _ modulus.pos) (FixedPoint.value_nonneg _)
  rw [truth, Holds, ← hmatches]
  cases relation.comparison.accepts (relation.subject x) <;> cases relation.negated <;>
    simp [Xor]

theorem Condition.truth_iff (condition : Condition) (x : Operands) :
    condition.truth x = true ↔ condition.Holds x := by
  simp only [truth, Holds, Bool.or_eq_true, isAlways_iff, List.any_eq_true, List.all_eq_true,
    Relation.truth_iff]

/-- The digits that remainders are worked out with are enough for a displayed number. -/
theorem Relation.holds?_eq {x : Operands} (hx : x.Coherent) (relation : Relation) :
    relation.holds? x = some (relation.truth x) := by
  have hsubject : relation.subject? x = some (relation.subject x) := by
    cases hmodulus : relation.modulus with
    | none => simp only [subject?, subject, hmodulus]
    | some modulus =>
        simp only [subject?, subject, hmodulus, hx.remainder?_eq relation.operand modulus]
  rw [holds?, hsubject]
  rfl

theorem Condition.holds?_eq {x : Operands} (hx : x.Coherent) (condition : Condition) :
    condition.holds? x = some (condition.truth x) := by
  have hgroup : groupHolds? x = fun group => pure (group.all fun r => r.truth x) := by
    funext group
    simp only [groupHolds?, Relation.holds?_eq hx]
    exact List.allM_pure
  rw [holds?, truth, hgroup, List.anyM_pure]
  cases condition.isAlways <;> rfl

/-- For displayed numbers relations and conditions always have an answer, and it is the right
one.  Every operand has just one remainder by every modulus. -/
theorem holds?_eq_some_holds {x : Operands} (hx : Operands.Displayed x) :
    (∀ relation : Relation, ∃ answer, relation.holds? x = some answer ∧
      (answer = true ↔ relation.Holds x)) ∧
    (∀ condition : Condition, ∃ answer, condition.holds? x = some answer ∧
      (answer = true ↔ condition.Holds x)) ∧
    ∀ (operand : Operand) (modulus : Modulus),
      ∃! r, IsRemainder modulus.value (x.get operand).value r := by
  refine ⟨?_, ?_, ?_⟩
  · intro relation
    exact ⟨relation.truth x, relation.holds?_eq hx.coherent, relation.truth_iff x⟩
  · intro condition
    exact ⟨condition.truth x, condition.holds?_eq hx.coherent, condition.truth_iff x⟩
  · intro operand modulus
    have hr := (x.get operand).isRemainder_mod modulus.pos
    exact ⟨_, hr, fun s hs => hs.unique hr⟩

def nearMultiple (comparison : RangeList → Comparison) : Relation where
  operand := .n
  modulus := some ⟨3, by decide⟩
  comparison := comparison ⟨⟨0, 1, by decide⟩, []⟩

/-- The remainder 0.40 of 123.40 lies between zero and one without being one of them. -/
theorem holds?_eq_some_holds_hundreds :
    Operands.Displayed Operands.hundreds ∧
      (nearMultiple .within).Holds Operands.hundreds ∧
      ¬(nearMultiple .membership).Holds Operands.hundreds := by
  have hx : Operands.Displayed Operands.hundreds := .ofText Operands.ofText_hundreds
  obtain ⟨hrelations, -⟩ := holds?_eq_some_holds hx
  refine ⟨hx, ?_, ?_⟩
  · obtain ⟨answer, heq, hiff⟩ := hrelations (nearMultiple .within)
    exact hiff.mp (Option.some.inj (heq.symm.trans (by decide)))
  · obtain ⟨answer, heq, hiff⟩ := hrelations (nearMultiple .membership)
    have hfalse : answer = false := Option.some.inj (heq.symm.trans (by decide))
    simpa [hfalse] using hiff

end PluralForms
