import PluralForms.Journal
import PluralForms.Operands.Conversion
import PluralForms.Rule
import PluralForms.Rule.Condition.Truth
import PluralForms.RuleTable

/-!
# Selectors

A selector holds the rules of one locale and one kind.  It takes a number to the first category
whose rule holds of it, in canonical order, and to `other` where none does.  All faults of the rule
texts are collected before they are reported.
-/

namespace PluralForms

/-! ## Rule sets -/

/-- The rules of a selector: those of the ruled categories in canonical order, and the rule of
`other`, which never decides. -/
structure RuleSet where
  ruled : List (Category × Rule)
  other : Rule := .always
  deriving DecidableEq, Repr

namespace RuleSet

def toList (rules : RuleSet) : List (Category × Rule) :=
  rules.ruled ++ [(.other, rules.other)]

def categories (rules : RuleSet) : List Category :=
  rules.toList.map (·.1)

/-- The condition of a category, none if no number is ever taken to it; `other` takes whatever
remains. -/
def condition? (rules : RuleSet) (category : Category) : Option Condition :=
  if category = .other then some .always
  else (rules.ruled.find? fun entry => entry.1 == category).map (·.2.condition)

/-- The rule entered for a category; of several the last. -/
def entered? (entries : List (Category × Rule)) (category : Category) : Option Rule :=
  (entries.reverse.find? fun entry => entry.1 == category).map (·.2)

def ofEntries (entries : List (Category × Rule)) : RuleSet where
  ruled := Category.ruled.filterMap fun category => (entered? entries category).map (category, ·)
  other := (entered? entries .other).getD .always

end RuleSet

/-! ## Entries -/

def unknownCategory (name : String) : RuleError where
  problem := .unexpected name (some .category)
  position := 0
  source := name

/-- The refusal of a rule without condition, at the end of the condition that is not there. -/
def missingCondition (source : String) : RuleError where
  problem := .ended .relation
  position := (source.toList.takeWhile (· != sampleMarker)).length
  source := source

/-- Reads the rule of a category; only `other` may go without a condition. -/
def readEntry (name source : String) : Except RuleError (Category × Rule) :=
  match Category.ofName? name with
  | none => .error (unknownCategory name)
  | some category =>
      match Rule.parse source with
      | .error e => .error e
      | .ok rule =>
          if rule.condition.isAlways && category != .other then .error (missingCondition source)
          else .ok (category, rule)

/-! ## Refusals -/

structure NotText where
  name : String
  type : String
  deriving DecidableEq, Repr

structure RejectedRules where
  locale : String
  kind : RuleKind
  errors : List (String × RuleError)
  deriving DecidableEq, Repr

def RejectedRules.diagnostic (e : RejectedRules) : Diagnostic :=
  .engineBuildFailed e.locale e.kind.name (e.errors.map (·.1))

inductive SelectorError where
  | lookup (error : LookupError)
  | notText (error : NotText)
  | rejected (error : RejectedRules)
  deriving DecidableEq, Repr

def SelectorError.message : SelectorError → String
  | lookup error => error.message
  | notText error =>
      s!"Rule for category {Text.quoted error.name} must be a string, got {error.type}"
  | rejected error => error.diagnostic.message

/-! ## Selectors -/

/-- The entries of a rule map that can be read, and the faults of the others.  The first value that
is no text ends it all. -/
def readEntries :
    RuleMap → Except NotText (List (Category × Rule) × List (String × RuleError))
  | [] => .ok ([], [])
  | (name, .foreign type _) :: _ => .error ⟨name, type⟩
  | (name, .text source) :: others =>
      match readEntries others with
      | .error e => .error e
      | .ok (entries, errors) =>
          match readEntry name source with
          | .ok entry => .ok (entry :: entries, errors)
          | .error e => .ok (entries, (name, e) :: errors)

structure Selector where
  locale : String
  kind : RuleKind
  rules : RuleSet
  deriving DecidableEq, Repr

namespace Selector

def ofRules {κ : Type} (locale : String) (kind : RuleKind) (rules : RuleMap) :
    Except SelectorError Selector × Journal κ :=
  match readEntries rules with
  | .error e => (.error (.notText e), [])
  | .ok (entries, []) => (.ok { locale, kind, rules := .ofEntries entries }, [])
  | .ok (_, errors) =>
      (.error (.rejected { locale, kind, errors }), [.rejected kind locale (errors.map (·.1))])

def ofNamedKind {κ : Type} (locale kind : String) (rules : RuleMap) :
    Except SelectorError Selector × Journal κ :=
  match RuleKind.named kind with
  | .error e => (.error (.lookup e), [])
  | .ok kind => ofRules locale kind rules

def categories (selector : Selector) : List Category := selector.rules.categories

/-- The first category of a list whose rule holds, else `other`. -/
def firstHolding? (x : Operands) : List (Category × Rule) → Option Category
  | [] => some .other
  | (category, rule) :: others =>
      match rule.condition.holds? x with
      | none => none
      | some true => some category
      | some false => firstHolding? x others

def select? (selector : Selector) (x : Operands) : Option Category :=
  firstHolding? x selector.rules.ruled

def selectNumber (selector : Selector) (value : Number) (places : Option Int) :
    Except ConversionError (Option Category) :=
  (Operands.ofNumber value places).map selector.select?

end Selector

end PluralForms
