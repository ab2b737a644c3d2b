import PluralForms.Provider
import PluralForms.RecencyCache
import PluralForms.Selector

/-!
# Pools of selectors

A pool builds the selector of a locale once and keeps it for as long as there is room.  Selectors
are kept under the provider, the normal spelling of the locale and the kind.  Each built selector
has a stamp of its own, so that a kept one can be told from one built again.
-/

namespace PluralForms

structure SelectorKey where
  provider : Provider.Id
  locale : String
  kind : RuleKind
  deriving DecidableEq, Repr

def RuleKind.capitals : RuleKind → String
  | cardinal => "CARDINAL"
  | ordinal => "ORDINAL"

def SelectorKey.describe (key : SelectorKey) : String :=
  s!"({key.provider.label}, {Text.quoted key.locale}, " ++
    s!"<PluralRuleType.{key.kind.capitals}: {Text.quoted key.kind.name}>)"

/-- A selector and the stamp of the request that built it. -/
structure Stamped where
  stamp : Nat
  selector : Selector
  deriving DecidableEq, Repr

structure SelectorPool where
  cache : RecencyCache SelectorKey Stamped := {}
  /-- Requests so far; no two have the same stamp. -/
  requests : Nat := 0

namespace SelectorPool

def ofCapacity? (capacity : Int) : Except RecencyCache.CapacityError SelectorPool :=
  (RecencyCache.ofCapacity? capacity).map fun cache => { cache }

/-- The selector of a locale in normal spelling, from the rules that the provider has for it or for
its nearest known ancestor. -/
def build {κ : Type} (provider : Provider) (locale : String) (kind : RuleKind) :
    Except SelectorError Selector × Journal κ :=
  match provider.resolve locale kind.name with
  | (.error e, journal) => (.error (.lookup e), journal)
  | (.ok (source, rules), journal) =>
      match Selector.ofRules locale kind rules with
      | (.error e, refused) => (.error e, journal ++ refused)
      | (.ok selector, refused) =>
          (.ok selector,
            journal ++ refused ++ [.built kind locale source selector.categories])

/-- The selector of a locale in any spelling, kept or built; the name of the kind is checked
first. -/
def request (pool : SelectorPool) (provider : Provider) (code kind : String) :
    (Except SelectorError Stamped × SelectorPool) × Journal SelectorKey :=
  match RuleKind.named kind with
  | .error e => ((.error (.lookup e), pool), [])
  | .ok kind =>
      let locale := Locale.normalize code
      let ((outcome, cache), journal) :=
        pool.cache.getOrBuild ⟨provider.id, locale, kind⟩ fun cache =>
          let (built, journal) := build provider locale kind
          ((built.map (Stamped.mk pool.requests), cache), journal)
      ((outcome, { cache, requests := pool.requests + 1 }), journal)

def clear (pool : SelectorPool) : SelectorPool :=
  { pool with cache := pool.cache.clear }

inductive SelectionError where
  | selector (error : SelectorError)
  | number (error : ConversionError)
  deriving DecidableEq, Repr

/-- The category of an input in a locale: first the selector is looked for, then the operands. -/
def categoryOf (pool : SelectorPool) (provider : Provider) (code kind : String) (value : Number)
    (places : Option Int) :
    (Except SelectionError (Option Category) × SelectorPool) × Journal SelectorKey :=
  match pool.request provider code kind with
  | ((.error e, after), journal) => ((.error (.selector e), after), journal)
  | ((.ok stamped, after), journal) =>
      (((stamped.selector.selectNumber value places).mapError .number, after), journal)

end SelectorPool

end PluralForms
