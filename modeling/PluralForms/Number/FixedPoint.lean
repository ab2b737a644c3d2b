import PluralForms.Number.Rounding
import PluralForms.Text.Classes

/-!
# Numbers with a fixed count of places

A non-negative decimal number as a whole count of its last place.  Numbers that differ only in
zeros behind the point have the same value but not the same places.
-/

namespace PluralForms

/-- The number `units / 10 ^ places`. -/
structure FixedPoint where
  units : Nat
  places : Nat
  deriving DecidableEq, Repr

namespace FixedPoint

def ofNat (n : Nat) : FixedPoint := ⟨n, 0⟩

/-- The digits before and after the point, at least one before it. -/
def split (x : FixedPoint) : List Char × List Char :=
  let digits := Nat.toDigits 10 x.units
  let padded := List.replicate (x.places + 1 - digits.length) '0' ++ digits
  padded.splitAt (padded.length - x.places)

def text (x : FixedPoint) : String :=
  let (whole, fraction) := x.split
  String.ofList (if fraction.isEmpty then whole else whole ++ '.' :: fraction)

def scale (x : FixedPoint) : Nat := Nat.pow 10 x.places

def isIntegral (x : FixedPoint) : Bool :=
  x.units % x.scale == 0

def isBetween (x : FixedPoint) (lower upper : Nat) : Bool :=
  lower * x.scale ≤ x.units && x.units ≤ upper * x.scale

def roundUnits (digits : Nat) (units : Nat) : Nat :=
  let rounded := roundSignificant digits units 0
  rounded.1 * Nat.pow 10 rounded.2.toNat

/-- The remainder of a division by an integer, fraction included, worked out with a bounded number
of digits: there is none if the integer quotient has more, and a longer remainder is rounded. -/
def remainder? (digits : Nat) (x : FixedPoint) (divisor : Nat) : Option FixedPoint :=
  let unit := divisor * x.scale
  if digits < digitCount (x.units / unit) then none
  else some ⟨roundUnits digits (x.units % unit), x.places⟩

end FixedPoint

end PluralForms
