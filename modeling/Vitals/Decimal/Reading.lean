/-!
# Reading decimal numbers as floats

Two ways to the float of `significand · 10 ^ exponent`: the correctly rounded one, and the quick
one that rounds the significand and then divides or multiplies by a power of ten, which can be
one unit off in the last place when the significand does not fit a float exactly.
-/

namespace Vitals.Decimal

/-- The float nearest to `significand · 10 ^ exponent`. -/
def nearest (significand : Nat) (exponent : Int) : Float :=
  if exponent < 0 then Float.ofScientific significand true exponent.natAbs
  else Float.ofScientific significand false exponent.natAbs

/-- The float nearest to `significand · 10 ^ exponent`, however far the exponent is from zero: from
`10 ^ 310` on it is infinite and below `10 ^ -330` it is zero. -/
def nearestOf (significand : Nat) (exponent : Int) : Float :=
  let places := Int.ofNat (toString significand).length + exponent
  if significand = 0 ∨ places < -330 then 0.0
  else if 310 < places then 1.0 / 0.0
  else nearest significand exponent

def powerOfTen (exponent : Nat) : Float :=
  Float.ofScientific 1 false exponent

/-- The rounded significand divided by a power of ten, in steps of at most 308 places. -/
def divideByPower : Nat → Float → Nat → Float
  | 0, value, _ => value
  | steps + 1, value, places =>
      if places ≤ 308 then value / powerOfTen places
      else if value == 0 then value
      else divideByPower steps (value / powerOfTen 308) (places - 308)

/-- The rounded significand scaled by a power of ten; `none` beyond the largest float. -/
def quick? (significand : Nat) (exponent : Int) : Option Float :=
  let value := Float.ofNat significand
  let places := exponent.natAbs
  if exponent < 0 then some (divideByPower (places / 308 + 1) value places)
  else if 308 < places then if significand = 0 then some value else none
  else
    let scaled := value * powerOfTen places
    if scaled.isInf then none else some scaled

end Vitals.Decimal
