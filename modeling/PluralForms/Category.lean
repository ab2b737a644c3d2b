/-!
# Plural categories and kinds of rules

The six categories in their canonical order, and the two kinds of rules.
-/

namespace PluralForms

inductive Category where
  | zero
  | one
  | two
  | few
  | many
  | other
  deriving DecidableEq, Repr

namespace Category

/-- The categories that take a rule of their own, in the order in which they are tried. -/
def ruled : List Category := [zero, one, two, few, many]

/-- The canonical order: `other` comes last, for what no rule takes. -/
def all : List Category := ruled ++ [other]

theorem mem_all (category : Category) : category ∈ all := by
  cases category <;> decide

theorem mem_ruled_iff (category : Category) : category ∈ ruled ↔ category ≠ other := by
  cases category <;> decide

def name : Category → String
  | zero => "zero"
  | one => "one"
  | two => "two"
  | few => "few"
  | many => "many"
  | other => "other"

def ofName? (name : String) : Option Category :=
  all.find? fun category => category.name == name

theorem ofName?_name (category : Category) : ofName? category.name = some category := by
  cases category <;> decide

theorem name_of_ofName? {name : String} {category : Category}
    (h : ofName? name = some category) : category.name = name := by
  simpa using List.find?_some h

end Category

inductive RuleKind where
  | cardinal
  | ordinal
  deriving DecidableEq, Repr

namespace RuleKind

def name : RuleKind → String
  | cardinal => "cardinal"
  | ordinal => "ordinal"

def ofName? (name : String) : Option RuleKind :=
  if name == "cardinal" then some cardinal
  else if name == "ordinal" then some ordinal
  else none

theorem ofName?_name (kind : RuleKind) : ofName? kind.name = some kind := by
  cases kind <;> decide

theorem name_of_ofName? {name : String} {kind : RuleKind} (h : ofName? name = some kind) :
    kind.name = name := by
  unfold ofName? at h
  split at h
  · next heq =>
      cases h
      exact (beq_iff_eq.mp heq).symm
  · split at h
    · next heq =>
        cases h
        exact (beq_iff_eq.mp heq).symm
    · cases h

end RuleKind

end PluralForms
