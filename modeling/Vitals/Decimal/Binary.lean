/-!
# The exact value of a float

A finite float is `m · 2 ^ e` for a natural number `m` and an integer `e`. `Binary.ofFloat` reads
the pair off the bits, so that the decimal forms of a float can be computed on natural numbers.
-/

namespace Vitals.Decimal

/-- The magnitude of a float: infinite, not a number, or exactly `mantissa · 2 ^ exponent`. -/
inductive Magnitude where
  | finite (mantissa : Nat) (exponent : Int)
  | infinite
  | notANumber
  deriving DecidableEq, Repr

/-- The sign and the magnitude of a float. -/
structure Binary where
  negative : Bool
  magnitude : Magnitude
  deriving DecidableEq, Repr

namespace Binary

/-- The pair of a 64-bit pattern: one sign bit, eleven bits of biased exponent, 52 of fraction. -/
def ofBits (bits : Nat) : Binary :=
  let negative := bits / Nat.pow 2 63 % 2 == 1
  let biased := bits / Nat.pow 2 52 % Nat.pow 2 11
  let fraction := bits % Nat.pow 2 52
  if biased = 2047 then
    ⟨negative, if fraction = 0 then .infinite else .notANumber⟩
  else if biased = 0 then
    ⟨negative, .finite fraction (-1074)⟩
  else
    ⟨negative, .finite (Nat.pow 2 52 + fraction) (Int.ofNat biased - 1075)⟩

/-- The sign and the magnitude of a float. -/
def ofFloat (x : Float) : Binary :=
  ofBits x.toBits.toNat

end Binary

/-- A non-negative rational number as numerator and denominator, not reduced. -/
structure Ratio where
  num : Nat
  den : Nat
  deriving Repr

namespace Ratio

/-- `mantissa · base ^ exponent`. -/
def ofScaled (mantissa base : Nat) (exponent : Int) : Ratio :=
  let power := Nat.pow base exponent.natAbs
  if exponent < 0 then ⟨mantissa, power⟩ else ⟨mantissa * power, 1⟩

/-- The quotient of two rational numbers. -/
def dividedBy (left right : Ratio) : Ratio :=
  ⟨left.num * right.den, left.den * right.num⟩

/-- The order of the rational numbers. -/
def le (left right : Ratio) : Bool :=
  left.num * right.den ≤ right.num * left.den

/-- The strict order of the rational numbers. -/
def lt (left right : Ratio) : Bool :=
  left.num * right.den < right.num * left.den

end Ratio

end Vitals.Decimal
