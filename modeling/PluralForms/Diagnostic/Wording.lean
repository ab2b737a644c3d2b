import PluralForms.Diagnostic.Basic

/-!
# The wording of diagnostics

One function for each code gives its sentence, its place, its hint and where to read on.
-/

namespace PluralForms.Diagnostic

def rulesUrl : String :=
  "https://www.unicode.org/reports/tr35/tr35-numbers.html#Language_Plural_Rules"

def operandsUrl : String :=
  "https://www.unicode.org/reports/tr35/tr35-numbers.html#Operands"

def chartsUrl : String :=
  "https://www.unicode.org/cldr/charts/47/supplemental/language_plural_rules.html"

def expectedHint (expected : List String) : Option String :=
  if expected.isEmpty then none else some ("Expected " ++ " or ".intercalate expected)

/-- The span of a piece of text; an empty piece still takes up one place. -/
def pieceSpan (position : Nat) (piece : String) : Span :=
  .ofLength position (max 1 piece.length)

def unexpectedToken (source : String) (position : Nat) (found : String)
    (expected : List String) : Diagnostic where
  code := .unexpectedToken
  message := s!"Unexpected '{found}' at position {position}"
  span := some (pieceSpan position found)
  source := some source
  hint := expectedHint expected
  helpUrl := some rulesUrl

def unexpectedEnd (source : String) (position : Nat) (expected : List String) : Diagnostic where
  code := .unexpectedEnd
  message := s!"Unexpected end of rule at position {position}"
  span := some (.ofLength position 0)
  source := some source
  hint := expectedHint expected
  helpUrl := some rulesUrl

def invalidOperand (source : String) (position : Nat) (name : String) : Diagnostic where
  code := .invalidOperand
  message := s!"Unknown operand '{name}' at position {position}"
  span := some (pieceSpan position name)
  source := some source
  hint := some "Operands are n, i, v, w, f, t, c and e"
  helpUrl := some operandsUrl

def invalidNumber (source : String) (position : Nat) (text reason : String) : Diagnostic where
  code := .invalidNumber
  message := s!"Invalid number '{text}' at position {position}: {reason}"
  span := some (pieceSpan position text)
  source := some source
  helpUrl := some rulesUrl

def invalidDecimalString (value reason : String) : Diagnostic where
  code := .invalidDecimalString
  message := s!"Cannot derive plural operands from '{value}': {reason}"
  hint := some "Pass a decimal string such as '1.50' or a value with fraction_digits"
  helpUrl := some operandsUrl

def operandOverflow (value reason : String) : Diagnostic where
  code := .operandOverflow
  message := s!"Plural operands of '{value}' overflow: {reason}"
  helpUrl := some operandsUrl

def localeNotFound (locale kind : String) : Diagnostic where
  code := .localeNotFound
  message := s!"No {kind} plural rules for locale '{locale}'"
  hint := some "Check the locale code or register rules for it in the provider"
  helpUrl := some chartsUrl

def engineBuildFailed (locale kind : String) (categories : List String) : Diagnostic where
  code := .engineBuildFailed
  message := s!"Cannot build {kind} plural rules for '{locale}': invalid rules for " ++
    ", ".intercalate categories
  hint := some "Inspect EngineBuildError.errors for per-category parse errors"
  helpUrl := some rulesUrl

end PluralForms.Diagnostic
