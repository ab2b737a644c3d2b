import PluralForms.Text.Printable

/-!
# Flat JSON objects

One-line JSON objects whose members are texts and numbers.  Members keep their order, a
comma or a colon is followed by a space, and text outside ASCII is written as it is.
-/

namespace PluralForms.Text.Json

/-- Quotes, backslashes and the control characters below the space are escaped. -/
def escapeChar (c : Char) : List Char :=
  if c = '"' then ['\\', '"']
  else if c = '\\' then ['\\', '\\']
  else if c = '\n' then ['\\', 'n']
  else if c = '\r' then ['\\', 'r']
  else if c = '\t' then ['\\', 't']
  else if c = '\x08' then ['\\', 'b']
  else if c = '\x0c' then ['\\', 'f']
  else if c.toNat < 0x20 then '\\' :: 'u' :: hexDigits 4 c.toNat
  else [c]

def string (text : String) : String :=
  String.ofList ('"' :: text.toList.flatMap escapeChar ++ ['"'])

inductive Value where
  | text (value : String)
  | number (value : Nat)
  deriving DecidableEq, Repr

def Value.render : Value → String
  | .text value => string value
  | .number value => toString value

def object (members : List (String × Value)) : String :=
  "\x7b" ++ ", ".intercalate (members.map fun m => string m.1 ++ ": " ++ m.2.render) ++ "\x7d"

end PluralForms.Text.Json
