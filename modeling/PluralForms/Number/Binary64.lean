import PluralForms.Number.Decimal
import PluralForms.Number.Rounding

/-!
# Shortest decimals of binary floating-point numbers

A binary number stands for all reals that round to it.  Of the decimals among them it is shown as
one with the fewest digits; of those as the nearest, and of two nearest as the even one.
-/

namespace PluralForms

/-- A binary floating-point number: `mantissa · 2 ^ exponent` with a sign, or a special value. -/
inductive Binary64 where
  | finite (negative : Bool) (mantissa : Nat) (exponent : Int)
  | infinite (negative : Bool)
  | nan
  deriving DecidableEq, Repr

namespace Binary64

/-- The number of a bit pattern: sign, eleven bits of exponent, 52 bits of fraction. -/
def ofBits (bits : Nat) : Binary64 :=
  let negative := bits / Nat.pow 2 63 % 2 == 1
  let field : Nat := bits / Nat.pow 2 52 % Nat.pow 2 11
  let fraction : Nat := bits % Nat.pow 2 52
  if field = 2047 then (if fraction = 0 then .infinite negative else .nan)
  else if field = 0 then .finite negative fraction (-1074)
  else .finite negative (Nat.pow 2 52 + fraction) ((field : Int) - 1075)

def ofFloat (x : Float) : Binary64 := ofBits x.toBits.toNat

/-! ## The shortest decimal

All lengths are counted in a common unit in which a quarter of the last binary place and the
decimal grid are both whole. -/

/-- The positive number `mantissa · 2 ^ exponent` beside the decimal grid `10 ^ grid`: `value` is
the number, `step` the distance of two grid points, `lower` and `upper` bound the reals that round
to the number; the bounds themselves do so only if `closed`. -/
structure Gauge where
  value : Nat
  step : Nat
  lower : Nat
  upper : Nat
  closed : Bool

/-- Below the least mantissa of an exponent the numbers lie twice as close. -/
def gauge (mantissa : Nat) (exponent grid : Int) : Gauge :=
  let quarter := Nat.pow 2 (exponent - 2).toNat * Nat.pow 10 (-grid).toNat
  let below := if mantissa = Nat.pow 2 52 ∧ -1074 < exponent then 1 else 2
  { value := 4 * mantissa * quarter
    step := Nat.pow 10 grid.toNat * Nat.pow 2 (2 - exponent).toNat
    lower := (4 * mantissa - below) * quarter
    upper := (4 * mantissa + 2) * quarter
    closed := mantissa % 2 == 0 }

namespace Gauge

def accepts (g : Gauge) (d : Nat) : Bool :=
  let point := d * g.step
  if g.closed then g.lower ≤ point && point ≤ g.upper else g.lower < point && point < g.upper

def best? (g : Gauge) : Option Nat :=
  let d := g.value / g.step
  if g.accepts d && g.accepts (d + 1) then some (divHalfEven g.value g.step)
  else if g.accepts d then some d
  else if g.accepts (d + 1) then some (d + 1)
  else none

end Gauge

def ceilingExponent (mantissa : Nat) (exponent : Int) : Int :=
  digitCount (mantissa * Nat.pow 2 exponent.toNat) - digitCount (Nat.pow 2 (-exponent).toNat) + 1

def exactDecimal (mantissa : Nat) (exponent : Int) : Nat × Int :=
  if 0 ≤ exponent then (mantissa * Nat.pow 2 exponent.toNat, 0)
  else (mantissa * Nat.pow 5 (-exponent).toNat, exponent)

/-- The coefficient and exponent of the shortest decimal: the first hit on ever finer grids.
Seventeen digits always suffice. -/
def shortest (mantissa : Nat) (exponent : Int) : Nat × Int :=
  if mantissa = 0 then (0, 0)
  else
    let top := ceilingExponent mantissa exponent
    let hit := (List.range 20).findSome? fun (k : Nat) =>
      (gauge mantissa exponent (top - k)).best?.map fun d => (d, top - k)
    hit.getD (exactDecimal mantissa exponent)

def toDecimal : Binary64 → Decimal
  | finite negative mantissa exponent =>
      let (coefficient, power) := shortest mantissa exponent
      .finite negative coefficient power
  | infinite negative => .infinite negative
  | nan => .nan false false 0

/-! ## Notation -/

structure FloatStyle where
  /-- The least and the largest exponent of the first digit in positional notation. -/
  least : Int
  largest : Int
  /-- The least number of exponent digits. -/
  exponentWidth : Nat

def style : FloatStyle where
  least := -4
  largest := 15
  exponentWidth := 2

def finiteChars (style : FloatStyle) (digits : List Char) (power : Int) : List Char :=
  let first := digits.length + power - 1
  if style.least ≤ first ∧ first ≤ style.largest then
    if power < 0 then
      if 0 ≤ first then Decimal.withPoint digits (first + 1).toNat
      else '0' :: '.' :: List.replicate (-first - 1).toNat '0' ++ digits
    else digits ++ List.replicate power.toNat '0' ++ ['.', '0']
  else
    let exponent := Nat.toDigits 10 first.natAbs
    Decimal.withPoint digits 1 ++ 'e' :: (if first < 0 then '-' else '+') ::
      List.replicate (style.exponentWidth - exponent.length) '0' ++ exponent

def text : Binary64 → String
  | finite negative mantissa exponent =>
      let (coefficient, power) := shortest mantissa exponent
      String.ofList ((if negative then ['-'] else []) ++
        finiteChars style (Nat.toDigits 10 coefficient) power)
  | infinite negative => if negative then "-inf" else "inf"
  | nan => "nan"

end Binary64

end PluralForms
