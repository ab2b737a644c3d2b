import PluralForms.Rule.Condition.Reader
import PluralForms.Rule.Condition.Writer
import PluralForms.Rule.Sample

/-!
# Rules

A rule is a condition with samples.  Reading takes the condition first, so a fault in it is
reported before any fault in the samples.
-/

namespace PluralForms

open Text

structure Rule where
  condition : Condition
  samples : Samples := {}
  deriving DecidableEq, Repr

namespace Rule

def always : Rule := { condition := .always }

def renderCondition (rule : Rule) : Except DigitLimit (List String) :=
  if rule.condition.isAlways then .ok [] else do return [← rule.condition.render]

/-- Condition and samples with a blank between them; what is absent is left out. -/
def render (rule : Rule) : Except DigitLimit String := do
  return " ".intercalate <| (← rule.renderCondition) ++
    (rule.samples.integer.map (SampleList.render "integer")).toList ++
    (rule.samples.decimal.map (SampleList.render "decimal")).toList

def readText (text : List Char) : Except Issue Rule := do
  let (condition, stop) ← Condition.readText text
  let samples ← Sample.readAll (.ofText text stop)
  return { condition, samples }

def parse (source : String) : Except RuleError Rule :=
  refusedIn source (readText source.toList)

end Rule

end PluralForms
