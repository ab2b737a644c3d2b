import PluralForms.Text.Printable

/-!
# Quoted text

A text in quotes, on one line: single quotes, unless the text holds a single quote and no
double quote.  The chosen quote and the backslash are escaped, and so is every
unprintable character.
-/

namespace PluralForms.Text

/-- The quote that needs no escape where one of the two needs none. -/
def quoteFor (text : List Char) : Char :=
  if text.contains '\'' && !text.contains '"' then '"' else '\''

def quotedChar (quote c : Char) : List Char :=
  if c = quote || c = '\\' then ['\\', c] else escapeChar c

def quoted (text : String) : String :=
  let chars := text.toList
  let quote := quoteFor chars
  String.ofList (quote :: chars.flatMap (quotedChar quote) ++ [quote])

end PluralForms.Text
