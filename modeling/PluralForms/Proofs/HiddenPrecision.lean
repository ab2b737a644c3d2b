import PluralForms.Proofs.ConditionMeaning
import PluralForms.Proofs.ShownNumber

/-!
# Zeros behind the fraction

A condition sees no more of a number than the operands that it reads.  Zeros behind the fraction
change the places and the shown fraction but no other operand, so only a condition that reads one of
these two can tell 1.5 from 1.50.
-/

namespace PluralForms

/-- The operands that relations of the condition read. -/
def Condition.Reads (condition : Condition) (operand : Operand) : Prop :=
  ∃ group ∈ condition.groups, ∃ relation ∈ group, relation.operand = operand

def Operands.AgreeOn (reads : Operand → Prop) (a b : Operands) : Prop :=
  ∀ operand, reads operand → (a.get operand).value = (b.get operand).value

/-! ## What a condition sees -/

theorem Relation.holds_congr {relation : Relation} {a b : Operands}
    (h : (a.get relation.operand).value = (b.get relation.operand).value) :
    relation.Holds a ↔ relation.Holds b := by
  simp only [Holds, Matches, h]

theorem Condition.holds_congr {condition : Condition} {a b : Operands}
    (h : Operands.AgreeOn condition.Reads a b) : condition.Holds a ↔ condition.Holds b := by
  have hrelation : ∀ group ∈ condition.groups, ∀ relation ∈ group,
      (relation.Holds a ↔ relation.Holds b) := by
    intro group hgroup relation hmem
    exact Relation.holds_congr (h _ ⟨group, hgroup, relation, hmem, rfl⟩)
  have hgroup : ∀ group ∈ condition.groups,
      ((∀ relation ∈ group, relation.Holds a) ↔ ∀ relation ∈ group, relation.Holds b) :=
    fun group hgroup => forall₂_congr (hrelation group hgroup)
  exact or_congr_right (exists_congr fun group => and_congr_right (hgroup group))

namespace Operands

theorem AgreeOn.holds?_eq {condition : Condition} {a b : Operands} (ha : a.Coherent)
    (hb : b.Coherent) (h : AgreeOn condition.Reads a b) :
    condition.holds? a = condition.holds? b := by
  have htruth : condition.truth a = condition.truth b := by
    rw [Bool.eq_iff_iff, condition.truth_iff, condition.truth_iff]
    exact Condition.holds_congr h
  rw [condition.holds?_eq ha, condition.holds?_eq hb, htruth]

/-! ## What zeros behind the fraction change -/

/-- The value and the compact exponent decide all operands but the places and the shown fraction. -/
theorem Coherent.agreeOn {a b : Operands} (ha : a.Coherent) (hb : b.Coherent)
    (hn : a.n.value = b.n.value) (hc : a.c = b.c) :
    AgreeOn (fun operand => operand ≠ .v ∧ operand ≠ .f) a b := by
  have hi : a.i = b.i := by rw [← ha.floor_n, ← hb.floor_n, hn]
  obtain ⟨hw, ht⟩ := ha.w_t_eq_of_value_eq hb hn
  intro operand hoperand
  cases operand with
  | n => exact hn
  | i => rw [get, get, hi]
  | v => exact absurd rfl hoperand.1
  | w => rw [get, get, hw]
  | f => exact absurd rfl hoperand.2
  | t => rw [get, get, ht]
  | c => rw [get, get, hc]
  | e => exact congrArg (fun c => (FixedPoint.ofNat c).value) hc

/-- Different numbers of one value differ in their places. -/
theorem Coherent.v_ne {a b : Operands} (ha : a.Coherent) (hb : b.Coherent)
    (hn : a.n.value = b.n.value) (hc : a.c = b.c) (hne : a ≠ b) : a.v ≠ b.v := by
  intro hv
  have hplaces : a.n.places = b.n.places := by rw [ha.places_n, hb.places_n, hv]
  have hunits : a.n.units = b.n.units := by
    rw [FixedPoint.value, FixedPoint.value, hplaces, div_left_inj' (by positivity)] at hn
    exact_mod_cast hn
  have hshown : a.n = b.n := by
    cases hvalue : a.n
    cases hvalue' : b.n
    simp_all
  exact hne (ha.eq_of_n_eq hb hshown hc)

def placesCondition (places : ℕ) : Condition where
  groups := [[{ operand := .v, comparison := .equality places }]]

theorem reads_placesCondition_iff (places : ℕ) (operand : Operand) :
    (placesCondition places).Reads operand ↔ operand = .v := by
  simp [Condition.Reads, placesCondition, eq_comm]

theorem truth_placesCondition (places : ℕ) (x : Operands) :
    (placesCondition places).truth x = (x.v == places) := by
  rw [Bool.eq_iff_iff, beq_iff_eq]
  simp [placesCondition, Condition.truth, Condition.isAlways, Relation.truth, Relation.subject, get,
    Comparison.accepts, FixedPoint.isIntegral, FixedPoint.isBetween, FixedPoint.ofNat,
    FixedPoint.scale]
  omega

/-- Two numbers of one value get the same answer from every condition that reads neither the places
nor the shown fraction; and if they are not shown alike, one that reads the places does tell them
apart. -/
theorem holds?_eq_of_value_eq {a b : Operands} (ha : Displayed a) (hb : Displayed b)
    (hn : a.n.value = b.n.value) (hc : a.c = b.c) :
    (∀ condition : Condition, ¬condition.Reads .v → ¬condition.Reads .f →
      ∃ answer, condition.holds? a = some answer ∧ condition.holds? b = some answer) ∧
    (a ≠ b → ∃ condition : Condition, (∀ operand, condition.Reads operand → operand = .v) ∧
      condition.holds? a = some true ∧ condition.holds? b = some false) := by
  constructor
  · intro condition hv hf
    have hagree : AgreeOn condition.Reads a b := by
      intro operand hreads
      apply ha.coherent.agreeOn hb.coherent hn hc
      constructor
      · rintro rfl
        exact hv hreads
      · rintro rfl
        exact hf hreads
    have hanswer := condition.holds?_eq ha.coherent
    exact ⟨_, hanswer, (hagree.holds?_eq ha.coherent hb.coherent).symm.trans hanswer⟩
  · intro hne
    have hv := ha.coherent.v_ne hb.coherent hn hc hne
    refine ⟨placesCondition a.v, fun operand => (reads_placesCondition_iff _ _).mp, ?_, ?_⟩
    · rw [Condition.holds?_eq ha.coherent, truth_placesCondition, beq_self_eq_true]
    · rw [Condition.holds?_eq hb.coherent, truth_placesCondition, beq_false_of_ne hv.symm]

def fewerHundreds : Operands where
  n := ⟨1234, 1⟩
  i := 123
  v := 1
  w := 1
  f := 4
  t := 4
  c := 2

/-- With and without a zero behind, a number gets the same answer about its remainder. -/
theorem holds?_eq_of_value_eq_hundreds :
    ofText "1.234c2" = .ok fewerHundreds ∧ ofText "1.2340c2" = .ok hundreds ∧
      (Condition.mk [[nearMultiple .within]]).holds? fewerHundreds = some true ∧
      (Condition.mk [[nearMultiple .within]]).holds? hundreds = some true := by
  have hshort : ofText "1.234c2" = .ok fewerHundreds := by decide
  have hvalue : fewerHundreds.n.value = hundreds.n.value := by
    norm_num [FixedPoint.value, fewerHundreds, hundreds]
  have hreads : ∀ operand, (Condition.mk [[nearMultiple .within]]).Reads operand → operand = .n := by
    simp [Condition.Reads, nearMultiple]
  obtain ⟨hanswer, -⟩ :=
    holds?_eq_of_value_eq (.ofText hshort) (.ofText ofText_hundreds) hvalue rfl
  have hunread : ∀ operand : Operand, operand ≠ .n →
      ¬(Condition.mk [[nearMultiple .within]]).Reads operand := fun operand => mt (hreads operand)
  obtain ⟨answer, hfewer, hmore⟩ := hanswer _ (hunread .v (by decide)) (hunread .f (by decide))
  have htrue : answer = true := Option.some.inj (hfewer.symm.trans (by decide))
  rw [htrue] at hfewer hmore
  exact ⟨hshort, ofText_hundreds, hfewer, hmore⟩

end Operands

end PluralForms
