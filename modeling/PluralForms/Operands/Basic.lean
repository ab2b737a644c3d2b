import PluralForms.Number.FixedPoint
import PluralForms.Number.Limits
import PluralForms.Rule.Condition

/-!
# Operands

The operands of a displayed number: its value, its integer part, and its fraction digits once as
they are shown and once without the zeros behind.  They are taken from the digits before and
after the point; a compact exponent moves the point to the right first.
-/

namespace PluralForms

open Text

structure Operands where
  /-- The absolute value, with all fraction digits that are shown. -/
  n : FixedPoint
  /-- The integer part. -/
  i : Nat
  /-- How many fraction digits are shown. -/
  v : Nat
  /-- How many fraction digits remain without the zeros behind. -/
  w : Nat
  /-- The fraction digits as an integer. -/
  f : Nat
  /-- The fraction digits without the zeros behind, as an integer. -/
  t : Nat
  /-- The compact exponent. -/
  c : Nat
  deriving DecidableEq, Repr

inductive Overflow where
  | exponent
  | integerPart
  | fractionDigits
  | workingDigits
  deriving DecidableEq, Repr

namespace Operands

def e (x : Operands) : Nat := x.c

def ofNat (n : Nat) : Operands where
  n := .ofNat n
  i := n
  v := 0
  w := 0
  f := 0
  t := 0
  c := 0

/-- Moves the point to the right, over zeros where the digits end. -/
def movePoint (whole fraction : List Char) (places : Nat) : List Char × List Char :=
  let digits := whole ++ fraction
  let point := whole.length + places
  (digits.take point ++ List.replicate (point - digits.length) '0', digits.drop point)

def ofSplit (whole fraction : List Char) (compact : Nat) : Operands where
  n := ⟨digitsValue (whole ++ fraction), fraction.length⟩
  i := digitsValue whole
  v := fraction.length
  w := (withoutTrailingZeros fraction).length
  f := digitsValue fraction
  t := digitsValue (withoutTrailingZeros fraction)
  c := compact

/-- The operands of the digits before and after the point: the integer part is checked first, then
the number of fraction digits. -/
def ofDigits (whole fraction : List Char) (compact : Nat) : Except Overflow Operands :=
  let moved := movePoint whole fraction compact
  if maxInteger < digitsValue moved.1 then .error .integerPart
  else if maxFractionDigits < moved.2.length then .error .fractionDigits
  else .ok (ofSplit moved.1 moved.2 compact)

theorem movePoint_zero (whole fraction : List Char) :
    movePoint whole fraction 0 = (whole, fraction) := by
  simp [movePoint]

end Operands

end PluralForms
