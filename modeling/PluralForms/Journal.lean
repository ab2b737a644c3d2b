import PluralForms.Category

/-!
# Records of what happened

Looking up rules, building selectors and storing them leave records.  A record tells what happened
as data; its line of text is made from it.
-/

namespace PluralForms

/-- What happened; stored selectors are named by keys of the type `κ`. -/
inductive Record (κ : Type) where
  /-- A selector that is not stored is about to be built. -/
  | building (key : κ)
  /-- The selector used least recently made room for another. -/
  | evicted (key : κ)
  /-- Rules were refused in the named categories. -/
  | rejected (kind : RuleKind) (locale : String) (names : List String)
  | built (kind : RuleKind) (locale source : String) (categories : List Category)
  /-- A provider has no rules for a locale. -/
  | missing (kind candidate provider : String)
  /-- Rules of an ancestor were taken. -/
  | fellBack (kind requested used : String)
  deriving DecidableEq, Repr

namespace Record

variable {κ : Type}

def level : Record κ → String
  | fellBack .. => "WARNING"
  | _ => "DEBUG"

def message (describe : κ → String) : Record κ → String
  | building key => "Building plural rules for " ++ describe key
  | evicted key => "Evicted plural rules for " ++ describe key
  | rejected kind locale names =>
      s!"Rejected {kind.name} plural rules for '{locale}': " ++ ", ".intercalate names
  | built kind locale source categories =>
      s!"Built {kind.name} plural rules for '{locale}' from '{source}' (" ++
        ", ".intercalate (categories.map Category.name) ++ ")"
  | missing kind candidate provider => s!"No {kind} rules for '{candidate}' in {provider}"
  | fellBack kind requested used =>
      s!"No {kind} plural rules for '{requested}'; using rules of '{used}'"

def line (describe : κ → String) (record : Record κ) : String :=
  record.level ++ " " ++ record.message describe

end Record

abbrev Journal (κ : Type) := List (Record κ)

end PluralForms
