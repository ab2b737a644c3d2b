import PluralForms.Journal
import PluralForms.RuleTable

/-!
# Providers of rule texts

A provider answers for the locales it knows.  A locale that it does not know gets the rules of its
nearest known ancestor.
-/

namespace PluralForms

/-- Who a provider is: its name, none for the standard one, and how it is shown in records. -/
structure Provider.Id where
  name : Option String
  label : String
  deriving DecidableEq, Repr

structure Provider where
  id : Provider.Id
  lookup : String → String → Except LookupError RuleMap

namespace Provider

def ofTable (name : String) (table : RuleTable) : Provider where
  id := { name := some name, label := table.label }
  lookup := table.lookup

/-- The rules of the first candidate that is known, and its code.  Each candidate that is not
known leaves a record, and so does an outcome whose code is not the requested one. -/
def firstKnown {κ : Type} (provider : Provider) (code kind : String) :
    List String → Except LookupError (String × RuleMap) × Journal κ
  | [] => (.error (.localeNotFound code kind), [])
  | candidate :: others =>
      match provider.lookup candidate kind with
      | .ok rules =>
          (.ok (candidate, rules),
            if candidate = Locale.normalize code then [] else [.fellBack kind code candidate])
      | .error (.unknownKind name) => (.error (.unknownKind name), [])
      | .error (.localeNotFound _ _) =>
          let (outcome, journal) := firstKnown provider code kind others
          (outcome, .missing kind candidate provider.id.label :: journal)

def resolve {κ : Type} (provider : Provider) (code kind : String) :
    Except LookupError (String × RuleMap) × Journal κ :=
  provider.firstKnown code kind (Locale.chain code)

end Provider

end PluralForms
