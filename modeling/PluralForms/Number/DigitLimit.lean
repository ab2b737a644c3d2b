import PluralForms.Number.Rounding

/-!
# Integers of too many digits

An integer is written, and its text is read, only up to a number of digits.  A sign is no digit, but
zeros in front are.
-/

namespace PluralForms

/-- The most digits of an integer that can be written or read. -/
def maxTextDigits : Nat := 4300

inductive DigitLimit where
  | writing
  | reading (digits : Nat)
  deriving DecidableEq, Repr

namespace DigitLimit

def message (limit : DigitLimit) : String :=
  let found :=
    match limit with
    | writing => ""
    | reading digits => s!": value has {digits} digits"
  s!"Exceeds the limit ({maxTextDigits} digits) for integer string conversion{found}; " ++
    "use sys.set_int_max_str_digits() to increase the limit"

/-- A message that names integers, or else what keeps it from being written. -/
def orMessage (text : Except DigitLimit String) : String :=
  match text with
  | .ok text => text
  | .error limit => limit.message

end DigitLimit

def writeInteger (n : Int) : Except DigitLimit String :=
  if digitCount n.natAbs ≤ maxTextDigits then .ok (toString n) else .error .writing

end PluralForms
