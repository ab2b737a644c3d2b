/-!
# Limits of numbers

Rules and operands hold integers of 64 bits; numbers show a bounded count of fraction digits and
carry a bounded compact exponent.  A decimal may have any exponent, but arithmetic on decimals has
limits of its own.
-/

namespace PluralForms

/-- The largest integer of a rule or of an operand. -/
def maxInteger : Nat := Nat.pow 2 64 - 1

/-- The most fraction digits a number may show; all of them fit into an integer operand. -/
def maxFractionDigits : Nat := 18

def maxCompactExponent : Nat := 21

/-- The largest exponent of the first digit of a decimal that arithmetic can work with. -/
def maxDecimalExponent : Nat := 999999

theorem ten_pow_maxFractionDigits_le : Nat.pow 10 maxFractionDigits ≤ maxInteger := by
  decide

end PluralForms
