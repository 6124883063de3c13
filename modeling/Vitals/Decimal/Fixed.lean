import Vitals.Decimal.Binary

/-!
# Floats with a fixed number of decimal places

`fixed places x` writes the exact value of `x` rounded to `places` decimal places; a value half
way between two neighbours goes to the even one.
-/

namespace Vitals.Decimal

/-- The quotient of two natural numbers rounded to the nearest one, a half to the even one. -/
def roundDiv (num den : Nat) : Nat :=
  let floor := num / den
  let twice := 2 * (num % den)
  if twice < den then floor
  else if den < twice then floor + 1
  else if floor % 2 = 0 then floor
  else floor + 1

/-- A natural number of units of `10 ^ -places`, with a point before its last `places` digits. -/
def withPoint (places units : Nat) : String :=
  if places = 0 then toString units
  else
    let fraction := toString (units % Nat.pow 10 places)
    let zeros := String.ofList (List.replicate (places - fraction.length) '0')
    toString (units / Nat.pow 10 places) ++ "." ++ zeros ++ fraction

/-- A float with `places` decimal places, the exact value rounded, a half to the even digit. -/
def fixed (places : Nat) (x : Float) : String :=
  let binary := Binary.ofFloat x
  let sign := if binary.negative then "-" else ""
  match binary.magnitude with
  | .notANumber => "NaN"
  | .infinite => sign ++ "inf"
  | .finite mantissa exponent =>
      let scaled := Ratio.ofScaled (mantissa * Nat.pow 10 places) 2 exponent
      sign ++ withPoint places (roundDiv scaled.num scaled.den)

end Vitals.Decimal
