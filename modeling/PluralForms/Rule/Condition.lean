import PluralForms.Number.DigitLimit

/-!
# Conditions

A condition is a disjunction of conjunctions of relations; each relation compares one operand
of a number, or its remainder, with a list of integer ranges.  The condition without groups
is always true.
-/

namespace PluralForms

inductive Operand where
  | n
  | i
  | v
  | w
  | f
  | t
  | c
  | e
  deriving DecidableEq, Repr

namespace Operand

def name : Operand → String
  | n => "n"
  | i => "i"
  | v => "v"
  | w => "w"
  | f => "f"
  | t => "t"
  | c => "c"
  | e => "e"

def all : List Operand := [n, i, v, w, f, t, c, e]

def ofName? (name : String) : Option Operand :=
  all.find? fun operand => operand.name == name

theorem ofName?_name (operand : Operand) : ofName? operand.name = some operand := by
  cases operand <;> decide

theorem name_of_ofName? {name : String} {operand : Operand}
    (h : ofName? name = some operand) : operand.name = name := by
  simpa using List.find?_some h

end Operand

/-- The integers from `lower` to `upper`, both included. -/
structure Interval where
  lower : Nat
  upper : Nat
  lower_le_upper : lower ≤ upper := by omega
  deriving Repr

namespace Interval

theorem eq_of_bounds {a b : Interval} (h : a.lower = b.lower ∧ a.upper = b.upper) : a = b := by
  obtain ⟨lower, upper, hle⟩ := a
  obtain ⟨rfl, rfl⟩ := h
  rfl

instance : DecidableEq Interval := fun a b =>
  decidable_of_iff (a.lower = b.lower ∧ a.upper = b.upper)
    ⟨eq_of_bounds, fun h => ⟨congrArg lower h, congrArg upper h⟩⟩

def single (value : Nat) : Interval where
  lower := value
  upper := value

def isSingle (interval : Interval) : Bool :=
  interval.lower == interval.upper

theorem eq_single_of_isSingle {interval : Interval} (h : interval.isSingle = true) :
    interval = single interval.lower := by
  obtain ⟨lower, upper, hle⟩ := interval
  have heq : lower = upper := by simpa [isSingle] using h
  subst heq
  rfl

@[simp] theorem isSingle_single (value : Nat) : (single value).isSingle = true := by
  simp [isSingle, single]

end Interval

structure RangeList where
  first : Interval
  others : List Interval
  deriving DecidableEq, Repr

namespace RangeList

def toList (ranges : RangeList) : List Interval :=
  ranges.first :: ranges.others

def cons (interval : Interval) (ranges : RangeList) : RangeList :=
  ⟨interval, ranges.toList⟩

theorem toList_ne_nil (ranges : RangeList) : ranges.toList ≠ [] := by
  simp [toList]

end RangeList

inductive Operator where
  | equality
  | membership
  | within
  deriving DecidableEq, Repr

def Operator.name : Operator → String
  | equality => "is"
  | membership => "in"
  | within => "within"

/-- What an operand is compared with: one integer, the integers of some ranges, or all
numbers between the bounds of some ranges. -/
inductive Comparison where
  | equality (value : Nat)
  | membership (ranges : RangeList)
  | within (ranges : RangeList)
  deriving DecidableEq, Repr

namespace Comparison

def operator : Comparison → Operator
  | equality _ => .equality
  | membership _ => .membership
  | within _ => .within

def ranges : Comparison → List Interval
  | equality value => [.single value]
  | membership list => list.toList
  | within list => list.toList

end Comparison

/-- A divisor; the remainder of the operand is compared instead of the operand. -/
structure Modulus where
  value : Nat
  pos : 0 < value
  deriving DecidableEq, Repr

structure Relation where
  operand : Operand
  modulus : Option Modulus := none
  comparison : Comparison
  negated : Bool := false
  deriving DecidableEq, Repr

/-- A condition holds when all relations of one of its groups hold, or when it has no groups. -/
structure Condition where
  groups : List (List Relation)
  deriving DecidableEq, Repr

namespace Condition

def always : Condition := ⟨[]⟩

def isAlways (condition : Condition) : Bool :=
  condition.groups.isEmpty

theorem isAlways_iff {condition : Condition} :
    condition.isAlways = true ↔ condition = always := by
  obtain ⟨groups⟩ := condition
  simp [isAlways, always]

def NoEmptyGroup (condition : Condition) : Prop :=
  ∀ group ∈ condition.groups, group ≠ []

end Condition

/-! ## Conditions from integers

Bounds and moduli given as integers are checked one after the other. -/

inductive TreeError where
  | negativeLower (lower : Int)
  | reversedBounds (lower upper : Int)
  | noRanges
  | notOneLiteral (ranges : List Interval)
  | nonPositiveModulus (modulus : Int)
  deriving DecidableEq, Repr

def Interval.display (interval : Interval) : Except DigitLimit String := do
  let lower ← writeInteger interval.lower
  let upper ← writeInteger interval.upper
  return s!"ValueRange(lower={lower}, upper={upper})"

/-- The ranges as a bracketed list in which a lone item is followed by a comma. -/
def Interval.displayAll (ranges : List Interval) : Except DigitLimit String := do
  let items ← ranges.mapM Interval.display
  return "(" ++ ", ".intercalate items ++ (if items.length = 1 then ",)" else ")")

def TreeError.text : TreeError → Except DigitLimit String
  | negativeLower lower => do
      return "ValueRange lower must be >= 0, got " ++ (← writeInteger lower)
  | reversedBounds lower upper => do
      let upper ← writeInteger upper
      let lower ← writeInteger lower
      return s!"ValueRange upper ({upper}) must be >= lower ({lower})"
  | noRanges => .ok "Relation range_list must not be empty"
  | notOneLiteral ranges => do
      return "IS relation takes exactly one literal, got " ++ (← Interval.displayAll ranges)
  | nonPositiveModulus modulus => do
      return "Relation modulus must be positive, got " ++ (← writeInteger modulus)

def TreeError.message (e : TreeError) : String := DigitLimit.orMessage e.text

theorem toNat_le_toNat_of_not_lt {lower upper : Int} (h : ¬upper < lower) :
    lower.toNat ≤ upper.toNat :=
  Int.toNat_le_toNat (Int.not_lt.mp h)

def Interval.ofBounds? (lower upper : Int) : Except TreeError Interval :=
  if lower < 0 then .error (.negativeLower lower)
  else if h : upper < lower then .error (.reversedBounds lower upper)
  else .ok ⟨lower.toNat, upper.toNat, toNat_le_toNat_of_not_lt h⟩

def Comparison.ofRanges? (operator : Operator) : List Interval → Except TreeError Comparison
  | [] => .error .noRanges
  | first :: others =>
      match operator with
      | .equality =>
          if first.isSingle && others.isEmpty then .ok (.equality first.lower)
          else .error (.notOneLiteral (first :: others))
      | .membership => .ok (.membership ⟨first, others⟩)
      | .within => .ok (.within ⟨first, others⟩)

def Modulus.ofInt? (modulus : Int) : Except TreeError Modulus :=
  if h : modulus ≤ 0 then .error (.nonPositiveModulus modulus)
  else .ok ⟨modulus.toNat, by omega⟩

/-- A relation from its parts: first the bounds from left to right, then the number of ranges,
then the modulus are checked. -/
def Relation.ofParts? (operand : Operand) (operator : Operator) (bounds : List (Int × Int))
    (modulus : Option Int) (negated : Bool) : Except TreeError Relation := do
  let ranges ← bounds.mapM fun b => Interval.ofBounds? b.1 b.2
  let comparison ← Comparison.ofRanges? operator ranges
  let modulus ← modulus.mapM Modulus.ofInt?
  return { operand, modulus, comparison, negated }

end PluralForms
