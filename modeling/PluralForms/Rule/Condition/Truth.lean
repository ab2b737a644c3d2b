import PluralForms.Operands.Basic

/-!
# Truth of conditions

A relation reads an operand, takes its remainder if there is a modulus, and compares.  Equality
and membership ask for an integer; `within` takes all numbers between the bounds, so 1.5 is within
0..2 but not in it.

Remainders of the value are worked out with `remainderDigits` digits.  The outcome is `none` where
that does not suffice, which no number in range brings about.
-/

namespace PluralForms

namespace Operands

def get (x : Operands) : Operand → FixedPoint
  | .n => x.n
  | .i => .ofNat x.i
  | .v => .ofNat x.v
  | .w => .ofNat x.w
  | .f => .ofNat x.f
  | .t => .ofNat x.t
  | .c => .ofNat x.c
  | .e => .ofNat x.e

def remainderDigits : Nat := 64

def remainder? (x : Operands) (operand : Operand) (modulus : Modulus) : Option FixedPoint :=
  if operand = .n then x.n.remainder? remainderDigits modulus.value
  else some (.ofNat ((x.get operand).units % modulus.value))

end Operands

def Comparison.accepts (x : FixedPoint) : Comparison → Bool
  | .equality value => x.isIntegral && x.isBetween value value
  | .membership ranges =>
      x.isIntegral && ranges.toList.any fun r => x.isBetween r.lower r.upper
  | .within ranges => ranges.toList.any fun r => x.isBetween r.lower r.upper

namespace Relation

def subject? (relation : Relation) (x : Operands) : Option FixedPoint :=
  match relation.modulus with
  | none => some (x.get relation.operand)
  | some modulus => x.remainder? relation.operand modulus

def holds? (relation : Relation) (x : Operands) : Option Bool :=
  (relation.subject? x).map fun subject => relation.comparison.accepts subject != relation.negated

end Relation

namespace Condition

/-- Whether all relations of a group hold; the first that does not decides. -/
def groupHolds? (x : Operands) (group : List Relation) : Option Bool :=
  group.allM fun relation => relation.holds? x

/-- Whether all relations of some group hold; the first such group decides. -/
def holds? (condition : Condition) (x : Operands) : Option Bool :=
  if condition.isAlways then some true else condition.groups.anyM (groupHolds? x)

end Condition

end PluralForms
