import PluralForms.Provider

/-!
# The standard rules

Data for running the program: the rules of the locales that it is run with when no table of one's
own is given, as published for the common locale data repository.  Providers are modelled for any
table, so nothing is proved of this one.  Its codes are found in any letter case.
-/

namespace PluralForms.Standard

structure Rules where
  codes : List String
  cardinal : List (String × String)
  ordinal : List (String × String)

def rules : List Rules := [
  { codes := ["ar", "ar_EG"]
    cardinal := [
      ("few", "n mod 100 in 3..10"),
      ("many", "n mod 100 in 11..99"),
      ("one", "n in 1"),
      ("two", "n in 2"),
      ("zero", "n in 0")]
    ordinal := [] },
  { codes := ["br"]
    cardinal := [
      ("few", "n mod 10 in 3..4,9 and n mod 100 not in 10..19,70..79,90..99"),
      ("many", "n not in 0 and n mod 1000000 in 0"),
      ("one", "n mod 10 in 1 and n mod 100 not in 11,71,91"),
      ("two", "n mod 10 in 2 and n mod 100 not in 12,72,92")]
    ordinal := [] },
  { codes := ["cy"]
    cardinal := [
      ("few", "n in 3"),
      ("many", "n in 6"),
      ("one", "n in 1"),
      ("two", "n in 2"),
      ("zero", "n in 0")]
    ordinal := [
      ("few", "n in 3,4"),
      ("many", "n in 5,6"),
      ("one", "n in 1"),
      ("two", "n in 2"),
      ("zero", "n in 0,7,8,9")] },
  { codes := ["da"]
    cardinal := [
      ("one", "n in 1 or t not in 0 and i in 0,1")]
    ordinal := [] },
  { codes := ["de"]
    cardinal := [
      ("one", "i in 1 and v in 0")]
    ordinal := [] },
  { codes := ["en", "en_US"]
    cardinal := [
      ("one", "i in 1 and v in 0")]
    ordinal := [
      ("few", "n mod 10 in 3 and n mod 100 not in 13"),
      ("one", "n mod 10 in 1 and n mod 100 not in 11"),
      ("two", "n mod 10 in 2 and n mod 100 not in 12")] },
  { codes := ["fr"]
    cardinal := [
      ("many", "e in 0 and i not in 0 and i mod 1000000 in 0 and v in 0 or e not in 0..5"),
      ("one", "i in 0,1")]
    ordinal := [
      ("one", "n in 1")] },
  { codes := ["ga"]
    cardinal := [
      ("few", "n in 3..6"),
      ("many", "n in 7..10"),
      ("one", "n in 1"),
      ("two", "n in 2")]
    ordinal := [
      ("one", "n in 1")] },
  { codes := ["he"]
    cardinal := [
      ("one", "i in 1 and v in 0 or i in 0 and v not in 0"),
      ("two", "i in 2 and v in 0")]
    ordinal := [] },
  { codes := ["hu"]
    cardinal := [
      ("one", "n in 1")]
    ordinal := [
      ("one", "n in 1,5")] },
  { codes := ["it"]
    cardinal := [
      ("many", "e in 0 and i not in 0 and i mod 1000000 in 0 and v in 0 or e not in 0..5"),
      ("one", "i in 1 and v in 0")]
    ordinal := [
      ("many", "n in 11,8,80,800")] },
  { codes := ["ja", "zh", "zh_Hant_TW"]
    cardinal := []
    ordinal := [] },
  { codes := ["lt"]
    cardinal := [
      ("few", "n mod 10 in 2..9 and n mod 100 not in 11..19"),
      ("many", "f not in 0"),
      ("one", "n mod 10 in 1 and n mod 100 not in 11..19")]
    ordinal := [] },
  { codes := ["lv", "lv_LV"]
    cardinal := [
      ("one",
        "n mod 10 in 1 and n mod 100 not in 11 or v in 2 and f mod 10 in 1 and f mod 100 " ++
          "not in 11 or v not in 2 and f mod 10 in 1"),
      ("zero", "n mod 10 in 0 or n mod 100 in 11..19 or v in 2 and f mod 100 in 11..19")]
    ordinal := [] },
  { codes := ["mt"]
    cardinal := [
      ("few", "n in 0 or n mod 100 in 3..10"),
      ("many", "n mod 100 in 11..19"),
      ("one", "n in 1"),
      ("two", "n in 2")]
    ordinal := [] },
  { codes := ["pl", "pl_PL"]
    cardinal := [
      ("few", "v in 0 and i mod 10 in 2..4 and i mod 100 not in 12..14"),
      ("many",
        "v in 0 and i not in 1 and i mod 10 in 0..1 or v in 0 and i mod 10 in 5..9 or v in " ++
          "0 and i mod 100 in 12..14"),
      ("one", "i in 1 and v in 0")]
    ordinal := [] },
  { codes := ["pt", "pt_BR"]
    cardinal := [
      ("many", "e in 0 and i not in 0 and i mod 1000000 in 0 and v in 0 or e not in 0..5"),
      ("one", "i in 0..1")]
    ordinal := [] },
  { codes := ["pt_PT"]
    cardinal := [
      ("many", "e in 0 and i not in 0 and i mod 1000000 in 0 and v in 0 or e not in 0..5"),
      ("one", "i in 1 and v in 0")]
    ordinal := [] },
  { codes := ["ru"]
    cardinal := [
      ("few", "v in 0 and i mod 10 in 2..4 and i mod 100 not in 12..14"),
      ("many",
        "v in 0 and i mod 10 in 0 or v in 0 and i mod 10 in 5..9 or v in 0 and i mod 100 " ++
          "in 11..14"),
      ("one", "v in 0 and i mod 10 in 1 and i mod 100 not in 11")]
    ordinal := [] },
  { codes := ["sl"]
    cardinal := [
      ("few", "v in 0 and i mod 100 in 3..4 or v not in 0"),
      ("one", "v in 0 and i mod 100 in 1"),
      ("two", "v in 0 and i mod 100 in 2")]
    ordinal := [] },
  { codes := ["sr_Latn_RS"]
    cardinal := [
      ("few",
        "v in 0 and i mod 10 in 2..4 and i mod 100 not in 12..14 or f mod 10 in 2..4 and f " ++
          "mod 100 not in 12..14"),
      ("one",
        "v in 0 and i mod 10 in 1 and i mod 100 not in 11 or f mod 10 in 1 and f mod 100 " ++
          "not in 11")]
    ordinal := [] },
  { codes := ["sv"]
    cardinal := [
      ("one", "i in 1 and v in 0")]
    ordinal := [
      ("one", "n mod 10 in 1,2 and n mod 100 not in 11,12")] }]

def smallLetters (code : String) : List Char :=
  code.toList.map Char.toLower

def find? (code : String) : Option Rules :=
  let wanted := smallLetters (Locale.normalize code)
  rules.find? fun entry => entry.codes.any fun known => smallLetters known == wanted

def Rules.ofKind (entry : Rules) : RuleKind → RuleMap
  | .cardinal => entry.cardinal.map fun r => (r.1, .text r.2)
  | .ordinal => entry.ordinal.map fun r => (r.1, .text r.2)

/-- The locale is looked for before the kind. -/
def lookup (code kind : String) : Except LookupError RuleMap :=
  match find? code with
  | none => .error (.localeNotFound code kind)
  | some entry => (RuleKind.named kind).map entry.ofKind

def provider : Provider where
  id := { name := none, label := "BabelRuleProvider()" }
  lookup := lookup

end PluralForms.Standard
