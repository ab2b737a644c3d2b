import PluralForms.Number.Binary64
import PluralForms.Number.DigitLimit

/-!
# Inputs

What may be handed in where a number is wanted: decimal text, integers, decimals and binary
numbers, and, to be refused, truth values and values of other types.
-/

namespace PluralForms

/-- What may stand in the place of a number without being one. -/
inductive Foreign where
  | nothing
  | emptyList
  deriving DecidableEq, Repr

namespace Foreign

def typeName : Foreign → String
  | nothing => "NoneType"
  | emptyList => "list"

def display : Foreign → String
  | nothing => "None"
  | emptyList => "[]"

end Foreign

inductive Number where
  | text (value : String)
  | integer (value : Int)
  | decimal (value : Decimal)
  | binary (value : Float)
  | boolean (value : Bool)
  | foreign (value : Foreign)

def Number.typeName : Number → String
  | text _ => "str"
  | integer _ => "int"
  | decimal _ => "decimal.Decimal"
  | binary _ => "float"
  | boolean _ => "bool"
  | foreign value => value.typeName

/-- How an input is named in messages. -/
def Number.display : Number → Except DigitLimit String
  | text value => .ok value
  | integer value => writeInteger value
  | decimal value => .ok value.text
  | binary value => .ok (Binary64.ofFloat value).text
  | boolean value => .ok (if value then "True" else "False")
  | foreign value => .ok value.display

end PluralForms
