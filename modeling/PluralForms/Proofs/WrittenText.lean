import PluralForms.Proofs.DigitRuns
import PluralForms.Rule

/-!
# The texts of conditions and rules

Writing fails in one way only, at an integer of too many digits.  So what each writer does is told
by a text, that of any integers, and by whether all integers in it are short enough.
-/

namespace PluralForms

/-! ## Outcomes of writing -/

/-- What becomes of a text that is written if its integers are short. -/
inductive Writing (short : Prop) (text : α) : Except DigitLimit α → Prop where
  | written (h : short) : Writing short text (.ok text)
  | stopped (h : ¬short) : Writing short text (.error .writing)

namespace Writing

variable {short : Prop} {text : α} {outcome : Except DigitLimit α}

theorem eq_ok (h : Writing short text outcome) (hshort : short) : outcome = .ok text := by
  cases h with
  | written _ => rfl
  | stopped hlong => exact absurd hshort hlong

theorem eq_ok_iff {other : α} (h : Writing short text outcome) :
    outcome = .ok other ↔ short ∧ text = other := by
  cases h with
  | written hshort => simp [hshort]
  | stopped hlong => simp [hlong]

theorem eq_error_iff (h : Writing short text outcome) : outcome = .error .writing ↔ ¬short := by
  cases h with
  | written hshort => simp [hshort]
  | stopped hlong => simp [hlong]

theorem congr {other : Prop} (h : Writing short text outcome) (hiff : short ↔ other) :
    Writing other text outcome := by
  rwa [← propext hiff]

theorem bind {other : Prop} {result : β} {next : α → Except DigitLimit β}
    (h : Writing short text outcome) (hnext : Writing other result (next text)) :
    Writing (short ∧ other) result (outcome >>= next) := by
  cases h with
  | stopped hlong => exact .stopped fun hboth => hlong hboth.1
  | written hshort => exact hnext.congr (and_iff_right hshort).symm

theorem map (f : α → β) (h : Writing short text outcome) :
    Writing short (f text) (outcome >>= fun text => .ok (f text)) := by
  refine (h.bind ?_).congr (and_iff_left trivial)
  exact .written trivial

theorem mapM {short : α → Prop} {text : α → β} {write : α → Except DigitLimit β} {as : List α}
    (h : ∀ a ∈ as, Writing (short a) (text a) (write a)) :
    Writing (∀ a ∈ as, short a) (as.map text) (as.mapM write) := by
  induction as with
  | nil => exact .written nofun
  | cons a others ih =>
      obtain ⟨ha, hothers⟩ := List.forall_mem_cons.mp h
      rw [List.mapM_cons]
      exact (ha.bind ((ih hothers).map (text a :: ·))).congr List.forall_mem_cons.symm

end Writing

/-! ## Integers -/

/-- The integer has few enough digits to be written. -/
def IsShort (n : Nat) : Prop := n < 10 ^ maxTextDigits

theorem writing_integer (n : Nat) : Writing (IsShort n) (toString n) (writeInteger n) := by
  rcases Nat.lt_or_ge n (10 ^ maxTextDigits) with hlt | hle
  · have hwritten : writeInteger n = .ok (toString n) := writeInteger_of_lt hlt
    rw [hwritten]
    exact .written hlt
  · have hstopped : writeInteger n = .error .writing := writeInteger_of_le hle
    rw [hstopped]
    exact .stopped (Nat.not_lt.mpr hle)

theorem isShort_of_le_maxInteger {n : Nat} (h : n ≤ maxInteger) : IsShort n :=
  Nat.lt_of_le_of_lt h maxInteger_lt_ten_pow_maxTextDigits

/-! ## The integers of a condition -/

def Interval.All (p : Nat → Prop) (interval : Interval) : Prop :=
  p interval.lower ∧ p interval.upper

def Relation.All (p : Nat → Prop) (relation : Relation) : Prop :=
  (∀ modulus ∈ relation.modulus, p modulus.value) ∧
    ∀ interval ∈ relation.comparison.ranges, interval.All p

/-- All integers of the condition have the property. -/
def Condition.All (p : Nat → Prop) (condition : Condition) : Prop :=
  ∀ group ∈ condition.groups, ∀ relation ∈ group, relation.All p

section

variable {p : Nat → Prop} [DecidablePred p]

instance (interval : Interval) : Decidable (interval.All p) :=
  inferInstanceAs (Decidable (_ ∧ _))

instance (relation : Relation) : Decidable (relation.All p) :=
  inferInstanceAs (Decidable (_ ∧ _))

instance (condition : Condition) : Decidable (condition.All p) :=
  inferInstanceAs (Decidable (∀ group ∈ condition.groups, ∀ relation ∈ group, _))

end

theorem Condition.All.mono {p q : Nat → Prop} {condition : Condition} (h : condition.All p)
    (hpq : ∀ n, p n → q n) : condition.All q := by
  intro group hgroup relation hrelation
  obtain ⟨hmodulus, hranges⟩ := h group hgroup relation hrelation
  refine ⟨fun modulus hmem => hpq _ (hmodulus modulus hmem), fun interval hmem => ?_⟩
  obtain ⟨hlower, hupper⟩ := hranges interval hmem
  exact ⟨hpq _ hlower, hpq _ hupper⟩

/-! ## Conditions -/

/-- The text of an interval; its integers may have any number of digits, as those of the texts
below. -/
def Interval.text (interval : Interval) : String :=
  if interval.isSingle then toString interval.lower
  else toString interval.lower ++ ".." ++ toString interval.upper

theorem Interval.writing (interval : Interval) :
    Writing (interval.All IsShort) interval.text interval.render := by
  have hlower := writing_integer interval.lower
  by_cases hsingle : interval.isSingle = true
  · have hbounds : interval.lower = interval.upper := by simpa [isSingle] using hsingle
    rw [text, render, if_pos hsingle, if_pos hsingle]
    exact hlower.congr (by rw [All, ← hbounds, and_self])
  · rw [text, render, if_neg hsingle, if_neg hsingle]
    exact hlower.bind ((writing_integer interval.upper).map _)

def Comparison.rangesText (comparison : Comparison) : String :=
  ",".intercalate (comparison.ranges.map Interval.text)

theorem Comparison.writing_ranges (comparison : Comparison) :
    Writing (∀ interval ∈ comparison.ranges, interval.All IsShort) comparison.rangesText
      comparison.renderRanges :=
  Writing.map _ (Writing.mapM fun interval _ => interval.writing)

namespace Relation

def expressionText (relation : Relation) : String :=
  match relation.modulus with
  | none => relation.operand.name
  | some modulus => relation.operand.name ++ " % " ++ toString modulus.value

theorem writing_expression (relation : Relation) :
    Writing (∀ modulus ∈ relation.modulus, IsShort modulus.value) relation.expressionText
      relation.renderExpression := by
  obtain ⟨operand, modulus, comparison, negated⟩ := relation
  cases modulus with
  | none => exact .written nofun
  | some modulus =>
      have hvalue := (writing_integer modulus.value).map (operand.name ++ " % " ++ ·)
      exact hvalue.congr (by simp)

def text (relation : Relation) : String :=
  relation.expressionText ++ " " ++
    Comparison.keyword relation.comparison.operator relation.negated ++ " " ++
    relation.comparison.rangesText

theorem writing (relation : Relation) :
    Writing (relation.All IsShort) relation.text relation.render :=
  relation.writing_expression.bind (relation.comparison.writing_ranges.map _)

end Relation

namespace Condition

def groupText (group : List Relation) : String :=
  " and ".intercalate (group.map Relation.text)

theorem writing_group (group : List Relation) :
    Writing (∀ relation ∈ group, relation.All IsShort) (groupText group) (renderGroup group) :=
  Writing.map _ (Writing.mapM fun relation _ => relation.writing)

def text (condition : Condition) : String :=
  " or ".intercalate (condition.groups.map groupText)

theorem text_always : always.text = "" := rfl

theorem writing (condition : Condition) :
    Writing (condition.All IsShort) condition.text condition.render :=
  Writing.map _ (Writing.mapM fun group _ => writing_group group)

end Condition

/-! ## Rules -/

def Samples.parts (samples : Samples) : List String :=
  (samples.integer.map (SampleList.render "integer")).toList ++
    (samples.decimal.map (SampleList.render "decimal")).toList

namespace Rule

def text (rule : Rule) : String :=
  " ".intercalate <|
    (if rule.condition.isAlways then [] else [rule.condition.text]) ++ rule.samples.parts

theorem writing_condition (rule : Rule) :
    Writing (rule.condition.All IsShort)
      (if rule.condition.isAlways then [] else [rule.condition.text]) rule.renderCondition := by
  rw [renderCondition]
  split
  · next halways =>
      rw [Condition.isAlways_iff.mp halways]
      exact .written nofun
  · exact rule.condition.writing.map ([·])

theorem writing (rule : Rule) :
    Writing (rule.condition.All IsShort) rule.text rule.render := by
  rw [text, Samples.parts, ← List.append_assoc, render]
  exact rule.writing_condition.map fun condition => " ".intercalate (condition ++ _ ++ _)

end Rule

end PluralForms
