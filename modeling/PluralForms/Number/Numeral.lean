import PluralForms.Number.Decimal
import PluralForms.Number.DigitLimit
import PluralForms.Text.Quoted

/-!
# Numerals

Integers, decimals and binary numbers as they are written.  Digits of any script will do, and white
space may stand around a numeral.  Underscores may stand between two digits; in a decimal they
may stand anywhere.
-/

namespace PluralForms

open Text

inductive NumeralError where
  | noInteger (text : String)
  | digitLimit (limit : DigitLimit)
  | noBinary (text : String)
  | noDecimal (error : Decimal.ReadError)
  deriving DecidableEq, Repr

def NumeralError.message : NumeralError → String
  | noInteger text => "invalid literal for int() with base 10: " ++ quoted text
  | digitLimit limit => limit.message
  | noBinary text => "could not convert string to float: " ++ quoted text
  | noDecimal error => error.message

namespace Numeral

/-- White space around a numeral; the information separators are none here. -/
def isMargin (c : Char) : Bool :=
  isSpace c && !(0x1c ≤ c.toNat && c.toNat ≤ 0x1f)

/-- Drops the underscores if each of them stands between two digits; `left` is the character
before. -/
def joined? (left : Option Char) : List Char → Option (List Char)
  | [] => some []
  | '_' :: rest =>
      if left.any isDigit && rest.head?.any isDigit then joined? (some '_') rest else none
  | c :: rest => (joined? (some c) rest).map (c :: ·)

def plain? (text : String) : Option (List Char) :=
  let inner := ((text.toList.dropWhile isMargin).reverse.dropWhile isMargin).reverse
  joined? none (inner.map asciiDigit)

/-- An integer and the number of digits that it is written with. -/
def integer? (text : String) : Option (Int × Nat) := do
  let chars ← plain? text
  return (← Decimal.readExponent? chars, chars.countP isDigit)

def integer (text : String) : Except NumeralError Int :=
  match integer? text with
  | none => .error (.noInteger text)
  | some (value, digits) =>
      if maxTextDigits < digits then .error (.digitLimit (.reading digits)) else .ok value

def decimal (text : String) : Except NumeralError Decimal :=
  (Decimal.read text).mapError .noDecimal

/-- The binary number nearest to a decimal.  The exponents that are cut down have the same outcome:
beyond them a number is infinite or zero. -/
def nearest : Decimal → Float
  | .finite negative coefficient exponent =>
      let magnitude :=
        if 0 ≤ exponent then Float.ofScientific coefficient false (min exponent.toNat 400)
        else
          Float.ofScientific coefficient true (min (-exponent).toNat (digitCount coefficient + 400))
      if negative then -magnitude else magnitude
  | .infinite negative => if negative then -1.0 / 0.0 else 1.0 / 0.0
  | .nan .. => 0.0 / 0.0

/-- Whether a binary number can be written so; a value that is no number has nothing after its
three letters. -/
def fitsBinary (chars : List Char) : Decimal → Bool
  | .nan .. => (Decimal.readSign chars).2.length == 3
  | _ => true

def binary? (text : String) : Option Float := do
  let chars ← plain? text
  let value ← Decimal.ofChars? chars
  guard (fitsBinary chars value)
  return nearest value

def binary (text : String) : Except NumeralError Float :=
  match binary? text with
  | some value => .ok value
  | none => .error (.noBinary text)

end Numeral

end PluralForms
