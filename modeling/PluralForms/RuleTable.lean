import PluralForms.Category
import PluralForms.Diagnostic.Wording
import PluralForms.Locale
import PluralForms.Text.Quoted

/-!
# Tables of rule texts

A table maps a locale and a kind of rules to the texts of its categories.  Locales are found in any
spelling; where two spellings of a locale are entered, the later one counts.
-/

namespace PluralForms

/-- What is given for a category: a text, or a value that is none, with the name of its type and the
way it is written. -/
inductive RuleText where
  | text (source : String)
  | foreign (type written : String)
  deriving DecidableEq, Repr

/-- Rule texts by category name, in the order given; no name occurs twice. -/
abbrev RuleMap := List (String × RuleText)

inductive LookupError where
  | unknownKind (name : String)
  | localeNotFound (locale kind : String)
  deriving DecidableEq, Repr

def LookupError.message : LookupError → String
  | unknownKind name => Text.quoted name ++ " is not a valid PluralRuleType"
  | localeNotFound locale kind => (Diagnostic.localeNotFound locale kind).message

def RuleKind.named (name : String) : Except LookupError RuleKind :=
  match ofName? name with
  | some kind => .ok kind
  | none => .error (.unknownKind name)

theorem RuleKind.named_name (kind : RuleKind) : named kind.name = .ok kind := by
  simp only [named, ofName?_name]

theorem RuleKind.name_of_named {name : String} {kind : RuleKind} (h : named name = .ok kind) :
    kind.name = name := by
  unfold named at h
  split at h
  · next found heq =>
      cases h
      exact name_of_ofName? heq
  · cases h

structure RuleTable where
  entries : List ((String × RuleKind) × RuleMap) := []
  deriving DecidableEq, Repr

namespace RuleTable

def size (table : RuleTable) : Nat := table.entries.length

/-- Enters rule texts; an entry of the same locale and kind gives way. -/
def insert (table : RuleTable) (key : String × RuleKind) (rules : RuleMap) : RuleTable :=
  ⟨table.entries.filter (fun entry => entry.1 != key) ++ [(key, rules)]⟩

def find? (table : RuleTable) (key : String × RuleKind) : Option RuleMap :=
  (table.entries.find? fun entry => entry.1 == key).map (·.2)

theorem find?_insert_self (table : RuleTable) (key : String × RuleKind) (rules : RuleMap) :
    (table.insert key rules).find? key = some rules := by
  unfold find? insert
  rw [List.find?_append]
  have hnone : (table.entries.filter fun entry => entry.1 != key).find?
      (fun entry => entry.1 == key) = none := by
    rw [List.find?_eq_none]
    intro entry hmem
    simpa using (List.mem_filter.mp hmem).2
  simp [hnone]

theorem find?_insert_of_ne (table : RuleTable) {key other : String × RuleKind} (rules : RuleMap)
    (h : other ≠ key) : (table.insert key rules).find? other = table.find? other := by
  unfold find? insert
  rw [List.find?_append, List.find?_filter]
  have hlast : [(key, rules)].find? (fun entry => entry.1 == other) = none := by
    simp [Ne.symm h]
  rw [hlast, Option.or_none]
  congr 2
  funext entry
  by_cases he : entry.1 = other
  · subst he
    simp [h]
  · simp [he]

abbrev Entry := String × List (String × RuleMap)

def insertEntry (table : RuleTable) (entry : Entry) : Except LookupError RuleTable :=
  entry.2.foldlM (fun table (name, rules) => do
    let kind ← RuleKind.named name
    return table.insert (Locale.key entry.1, kind) rules) table

def ofEntries (entries : List Entry) : Except LookupError RuleTable :=
  entries.foldlM insertEntry {}

def lookup (table : RuleTable) (code kind : String) : Except LookupError RuleMap := do
  let k ← RuleKind.named kind
  match table.find? (Locale.key code, k) with
  | some rules => .ok rules
  | none => .error (.localeNotFound code kind)

def label (table : RuleTable) : String :=
  s!"StaticRuleProvider(<{table.size} rule sets>)"

end RuleTable

end PluralForms
