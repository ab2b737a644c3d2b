import PluralForms.Number.Rounding
import PluralForms.Text.Classes
import PluralForms.Text.Digits

/-!
# Decimal numbers

Decimal floating-point numbers: a sign, a coefficient and a power of ten, and beside them the
infinities and the values that are no number.  A number is written in plain notation unless
it has zeros to fill in behind or more than five zeros after the point.
-/

namespace PluralForms

open Text

inductive Decimal where
  /-- `coefficient · 10 ^ exponent` with a sign; zeros keep their sign and exponent. -/
  | finite (negative : Bool) (coefficient : Nat) (exponent : Int)
  | infinite (negative : Bool)
  | nan (negative signaling : Bool) (payload : Nat)
  deriving DecidableEq, Repr

namespace Decimal

def ofInt (n : Int) : Decimal := .finite (n < 0) n.natAbs 0

/-! ## Writing -/

def withPoint (digits : List Char) (before : Nat) : List Char :=
  if before < digits.length then digits.take before ++ '.' :: digits.drop before else digits

def signedDigits (n : Int) : List Char :=
  (if n < 0 then '-' else '+') :: Nat.toDigits 10 n.natAbs

def finiteChars (digits : List Char) (exponent : Int) : List Char :=
  let point := digits.length + exponent
  if exponent ≤ 0 ∧ -6 < point then
    if 0 < point then withPoint digits point.toNat
    else '0' :: '.' :: List.replicate (-point).toNat '0' ++ digits
  else withPoint digits 1 ++ 'E' :: signedDigits (point - 1)

def magnitudeChars : Decimal → List Char
  | finite _ coefficient exponent => finiteChars (Nat.toDigits 10 coefficient) exponent
  | infinite _ => "Infinity".toList
  | nan _ signaling payload =>
      (if signaling then "sNaN" else "NaN").toList ++
        (if payload = 0 then [] else Nat.toDigits 10 payload)

def isNegative : Decimal → Bool
  | finite negative .. => negative
  | infinite negative => negative
  | nan negative .. => negative

def text (x : Decimal) : String :=
  String.ofList ((if x.isNegative then ['-'] else []) ++ x.magnitudeChars)

/-! ## Reading -/

def readSign : List Char → Bool × List Char
  | '-' :: rest => (true, rest)
  | '+' :: rest => (false, rest)
  | rest => (false, rest)

def readExponent? (chars : List Char) : Option Int :=
  let (negative, digits) := readSign chars
  if digits.isEmpty || !digits.all isDigit then none
  else some (if negative then -(digitsValue digits : Int) else digitsValue digits)

def readFinite? (negative : Bool) (chars : List Char) : Option Decimal :=
  let whole := chars.takeWhile isDigit
  let rest := chars.dropWhile isDigit
  let (fraction, rest) :=
    match rest with
    | '.' :: more => (more.takeWhile isDigit, more.dropWhile isDigit)
    | _ => ([], rest)
  let exponent? :=
    match rest with
    | [] => some 0
    | mark :: more => if mark == 'e' || mark == 'E' then readExponent? more else none
  if whole.isEmpty && fraction.isEmpty then none
  else exponent?.map fun exponent =>
    .finite negative (digitsValue (whole ++ fraction)) (exponent - fraction.length)

/-- The digits after the letters of a value that is no number. -/
def readPayload? (digits : List Char) : Option Nat :=
  if digits.all isDigit then some (digitsValue digits) else none

/-- Reads a number, or one of the special values in letters of either case, in ASCII digits. -/
def ofChars? (chars : List Char) : Option Decimal :=
  let (negative, body) := readSign chars
  match body.map Char.toLower with
  | ['i', 'n', 'f'] => some (.infinite negative)
  | ['i', 'n', 'f', 'i', 'n', 'i', 't', 'y'] => some (.infinite negative)
  | 'n' :: 'a' :: 'n' :: payload => (readPayload? payload).map (.nan negative false)
  | 's' :: 'n' :: 'a' :: 'n' :: payload => (readPayload? payload).map (.nan negative true)
  | _ => readFinite? negative body

/-- Reads a decimal.  White space around it and underscores do not count, and digits of any script
will do. -/
def ofText? (text : String) : Option Decimal :=
  ofChars? (((trim text.toList).filter (· != '_')).map asciiDigit)

/-! ## Limits -/

def largestExponent : Int := 999999999999999999

def leastExponent : Int := -1999999999999999997

/-- The exponents of a number lie within the limits. -/
def InReach : Decimal → Prop
  | finite _ coefficient exponent =>
      leastExponent ≤ exponent ∧ leadingExponent coefficient exponent ≤ largestExponent
  | _ => True

instance (x : Decimal) : Decidable x.InReach := by
  cases x with
  | finite negative coefficient exponent =>
      exact inferInstanceAs (Decidable (_ ∧ _))
  | infinite negative => exact isTrue trivial
  | nan negative signaling payload => exact isTrue trivial

inductive ReadError where
  | notNumber
  | outOfReach
  deriving DecidableEq, Repr

def ReadError.message : ReadError → String
  | notNumber => "[<class 'decimal.ConversionSyntax'>]"
  | outOfReach => "[<class 'decimal.InvalidOperation'>]"

def read (text : String) : Except ReadError Decimal :=
  match ofText? text with
  | none => .error .notNumber
  | some x => if x.InReach then .ok x else .error .outOfReach

end Decimal

end PluralForms
