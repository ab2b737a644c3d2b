import PluralForms.Diagnostic.Wording
import PluralForms.Number
import PluralForms.Operands.Basic

/-!
# Operands of inputs

Decimal text, integers and decimals show all their digits.  Any number, a binary one in
particular, can be shown with a given count of fraction digits; it is rounded to them, a tie to
the even neighbour.
-/

namespace PluralForms

open Text

/-! ## Refusals -/

inductive Malformed where
  | notDecimal
  | notFinite
  | boolean
  | missingPlaces
  deriving DecidableEq, Repr

def Malformed.reason : Malformed → String
  | notDecimal => "not a decimal number"
  | notFinite => "not a finite number"
  | boolean => "booleans are not numbers"
  | missingPlaces => "float input requires explicit fraction_digits"

def Overflow.reason : Overflow → String
  | exponent => s!"exponent above {maxCompactExponent}"
  | integerPart => "integer part exceeds 64-bit range"
  | fractionDigits => s!"more than {maxFractionDigits} fraction digits"
  | workingDigits => "rounded value exceeds the working precision"

inductive OperandError where
  | malformed (input : String) (cause : Malformed)
  | overflow (input : String) (cause : Overflow)
  deriving DecidableEq, Repr

namespace OperandError

def input : OperandError → String
  | malformed input _ => input
  | overflow input _ => input

def kindName : OperandError → String
  | malformed .. => "invalid_decimal_string"
  | overflow .. => "overflow"

def diagnostic : OperandError → Diagnostic
  | malformed input cause => .invalidDecimalString input cause.reason
  | overflow input cause => .operandOverflow input cause.reason

def message (e : OperandError) : String := e.diagnostic.message

end OperandError

inductive ConversionError where
  | operands (error : OperandError)
  | negativePlaces (places : Int)
  /-- Text shows its own fraction digits. -/
  | placesOfText
  /-- Text that is to be rounded, but gives no decimal. -/
  | unreadable (error : Decimal.ReadError)
  /-- The first digit stands too far to the left for arithmetic to round the number. -/
  | unroundable
  /-- An integer that a refusal would name, or the digits of a text, cannot be converted. -/
  | digitLimit (limit : DigitLimit)
  | unsupported (value : Foreign)
  | notConvertible (value : Foreign)
  deriving DecidableEq, Repr

def ConversionError.message : ConversionError → String
  | operands error => error.message
  | negativePlaces places =>
      DigitLimit.orMessage do
        return "fraction_digits must be >= 0, got " ++ (← writeInteger places)
  | placesOfText => "fraction_digits cannot be combined with a decimal string"
  | unreadable error => error.message
  | unroundable => "[<class 'decimal.Overflow'>]"
  | digitLimit limit => limit.message
  | unsupported value => s!"Unsupported numeric type: {value.typeName}"
  | notConvertible .nothing => "conversion from NoneType to Decimal is not supported"
  | notConvertible .emptyList => "argument must be a sequence of length 3"

def Number.refused (value : Number) (error : String → OperandError) : ConversionError :=
  match value.display with
  | .ok input => .operands (error input)
  | .error limit => .digitLimit limit

/-! ## Decimal text -/

structure DecimalText where
  whole : List Char
  fraction : List Char
  exponent : Option (List Char)
  deriving DecidableEq, Repr

namespace DecimalText

/-- Digits after a mark of the given class.  Without the mark there are none; a mark without digits
fits nothing. -/
def part? (isMark : Char → Bool) (chars : List Char) : Option (Option (List Char) × List Char) :=
  match chars with
  | [] => some (none, [])
  | c :: rest =>
      if isMark c then
        match rest.takeWhile isDigit with
        | [] => none
        | digit :: digits => some (some (digit :: digits), rest.dropWhile isDigit)
      else some (none, chars)

def unsigned : List Char → List Char
  | [] => []
  | c :: rest => if c == '+' || c == '-' then rest else c :: rest

/-- Sign, digits, a point and digits, `c` or `e` and digits; all but the first digits at will. -/
def parse? (chars : List Char) : Option DecimalText := do
  let body := unsigned chars
  let whole := body.takeWhile isDigit
  guard (!whole.isEmpty)
  let (fraction, rest) ← part? (· == '.') (body.dropWhile isDigit)
  let (exponent, rest) ← part? (fun c => c == 'c' || c == 'e') rest
  guard rest.isEmpty
  return { whole, fraction := fraction.getD [], exponent }

/-- The compact exponent, zero if there is none.  It is written with at most three digits. -/
def compact (text : DecimalText) : Except Overflow Nat :=
  match text.exponent with
  | none => .ok 0
  | some digits =>
      if 3 < digits.length ∨ maxCompactExponent < digitsValue digits then .error .exponent
      else .ok (digitsValue digits)

def operands (text : DecimalText) : Except Overflow Operands := do
  let compact ← text.compact
  Operands.ofDigits text.whole text.fraction compact

/-- Digits before the point that are not converted, as too many, though too few remain behind the
zeros in front to refuse them as too large.  The point is moved before they are looked at. -/
def unread? (text : DecimalText) : Option DigitLimit :=
  match text.compact with
  | .error _ => none
  | .ok compact =>
      let whole := (Operands.movePoint text.whole text.fraction compact).1
      if (withoutLeadingZeros whole).length ≤ digitCount maxInteger ∧
          maxTextDigits < whole.length then some (.reading whole.length)
      else none

end DecimalText

namespace Operands

def shown (input : String) (outcome : Except Overflow α) : Except OperandError α :=
  outcome.mapError (.overflow input)

/-- The operands of a decimal text with any number of digits. -/
def ofText (text : String) : Except OperandError Operands :=
  match DecimalText.parse? text.toList with
  | none => .error (.malformed text .notDecimal)
  | some parts => shown text parts.operands

/-- The operands of a decimal text whose digits can be converted. -/
def ofString (text : String) : Except ConversionError Operands :=
  match (DecimalText.parse? text.toList).bind DecimalText.unread? with
  | some limit => .error (.digitLimit limit)
  | none => (ofText text).mapError .operands

def ofInt (value : Int) : Except ConversionError Operands :=
  if maxInteger < value.natAbs then
    .error (Number.refused (.integer value) (.overflow · .integerPart))
  else .ok (ofNat value.natAbs)

/-- The operands of `coefficient · 10 ^ exponent`; a negative exponent shows as many fraction
digits. -/
def ofFinite (coefficient : Nat) (exponent : Int) : Except Overflow Operands :=
  if coefficient = 0 ∧ 0 ≤ exponent then .ok (ofNat 0)
  else if 0 < exponent ∧ 21 < digitCount coefficient + exponent then .error .integerPart
  else if maxFractionDigits < -exponent then .error .fractionDigits
  else if 0 ≤ exponent then
    ofDigits (Nat.toDigits 10 coefficient ++ List.replicate exponent.toNat '0') [] 0
  else
    let digits := (FixedPoint.mk coefficient (-exponent).toNat).split
    ofDigits digits.1 digits.2 0

def ofDecimal (value : Decimal) : Except OperandError Operands :=
  match value with
  | .finite _ coefficient exponent => shown value.text (ofFinite coefficient exponent)
  | _ => .error (.malformed value.text .notFinite)

/-! ## A given count of fraction digits -/

/-- Decimals are rounded to this many digits before they are compared with the largest integer. -/
def comparisonDigits : Nat := 28

def workingDigits : Nat := 40

/-- Whether a decimal, rounded for the comparison, is beyond what arithmetic can work with.  The
rounding may carry it there. -/
def beyondArithmetic (compared : Nat × Int) : Bool :=
  compared.1 != 0 && maxDecimalExponent < leadingExponent compared.1 compared.2

/-- The operands of a decimal shown with `places` fraction digits.  The value is first refused if it
reaches the first integer out of range, or if it is too large even to tell; a refusal names it as
`value`. -/
def ofRounded (value : Number) (decimal : Decimal) (places : Nat) :
    Except ConversionError Operands :=
  match decimal with
  | .finite negative coefficient exponent =>
      let compared := roundSignificant comparisonDigits coefficient exponent
      if beyondArithmetic compared then .error .unroundable
      else if reaches (maxInteger + 1) compared.1 compared.2 then
        .error (value.refused (.overflow · .integerPart))
      else match quantize? workingDigits places coefficient exponent with
        | none => .error (value.refused (.overflow · .workingDigits))
        | some units => (ofDecimal (.finite negative units (-places))).mapError .operands
  | _ => .error (value.refused (.malformed · .notFinite))

/-- The operands of a number shown with `places` fraction digits; the count is checked before the
number.  Text is read as a decimal. -/
def ofPlaces (value : Number) (places : Int) : Except ConversionError Operands :=
  if places < 0 then .error (.negativePlaces places)
  else if maxFractionDigits < places then .error (value.refused (.overflow · .fractionDigits))
  else
    let rounded (decimal : Decimal) := ofRounded value decimal places.toNat
    match value with
    | .integer n => rounded (.ofInt n)
    | .decimal x => rounded x
    | .binary x => rounded (Binary64.ofFloat x).toDecimal
    | .boolean _ => .error (value.refused (.malformed · .boolean))
    | .text text =>
        match Decimal.read text with
        | .ok x => rounded x
        | .error e => .error (.unreadable e)
    | .foreign other => .error (.notConvertible other)

def ofNumber (value : Number) (places : Option Int) : Except ConversionError Operands :=
  match places, value with
  | some _, .text _ => .error .placesOfText
  | some places, _ => ofPlaces value places
  | none, .boolean _ => .error (value.refused (.malformed · .boolean))
  | none, .text text => ofString text
  | none, .integer n => ofInt n
  | none, .decimal x => (ofDecimal x).mapError .operands
  | none, .binary _ => .error (value.refused (.malformed · .missingPlaces))
  | none, .foreign other => .error (.unsupported other)

end Operands

end PluralForms
