import PluralForms.Rule.Condition

/-!
# Writing conditions

Conditions are written in the signs of the grammar: `%`, `=` and `!=`.  Equalities and
relations with `within` keep their words.  An integer that cannot be written stops the writing.
-/

namespace PluralForms

def Interval.render (interval : Interval) : Except DigitLimit String := do
  if interval.isSingle then writeInteger interval.lower
  else
    let lower ← writeInteger interval.lower
    let upper ← writeInteger interval.upper
    return lower ++ ".." ++ upper

namespace Comparison

def keyword : Operator → (negated : Bool) → String
  | .equality, false => "is"
  | .equality, true => "is not"
  | .membership, false => "="
  | .membership, true => "!="
  | .within, false => "within"
  | .within, true => "not within"

def renderRanges (comparison : Comparison) : Except DigitLimit String := do
  return ",".intercalate (← comparison.ranges.mapM Interval.render)

end Comparison

namespace Relation

def renderExpression (relation : Relation) : Except DigitLimit String :=
  match relation.modulus with
  | none => .ok relation.operand.name
  | some modulus => do
      return relation.operand.name ++ " % " ++ (← writeInteger modulus.value)

def render (relation : Relation) : Except DigitLimit String := do
  let expression ← relation.renderExpression
  let ranges ← relation.comparison.renderRanges
  return expression ++ " " ++
    Comparison.keyword relation.comparison.operator relation.negated ++ " " ++ ranges

end Relation

namespace Condition

def renderGroup (group : List Relation) : Except DigitLimit String := do
  return " and ".intercalate (← group.mapM Relation.render)

/-- The text of a condition; the one that is always true has none. -/
def render (condition : Condition) : Except DigitLimit String := do
  return " or ".intercalate (← condition.groups.mapM renderGroup)

end Condition

end PluralForms
