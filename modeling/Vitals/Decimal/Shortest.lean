import Vitals.Decimal.Binary

/-!
# The shortest decimal form of a float

Of all decimal numbers that are read back as a given float, `shortest` picks one with the fewest
digits, and of those the one nearest to the float. The search walks the decimal grids of 1, 2, …,
17 digits; on each grid only the two neighbours of the float can be nearest, and a grid of 17
digits always has a point that reads back.
-/

namespace Vitals.Decimal

/-- The number `digits · 10 ^ exponent`. -/
structure Digits where
  digits : Nat
  exponent : Int
  deriving DecidableEq, Repr

namespace Digits

/-- The same number with at least `fuel` fewer trailing zeros, or none left. -/
def stripZeros : Nat → Digits → Digits
  | 0, number => number
  | fuel + 1, number =>
      if number.digits ≠ 0 ∧ number.digits % 10 = 0 then
        stripZeros fuel ⟨number.digits / 10, number.exponent + 1⟩
      else number

def ratio (number : Digits) : Ratio :=
  Ratio.ofScaled number.digits 10 number.exponent

end Digits

/-- The exponent of the leading digit of a positive rational number. -/
def leadingExponent (value : Ratio) : Int :=
  if value.den ≤ value.num then
    Int.ofNat ((toString (value.num / value.den)).length - 1)
  else
    let length := (toString (value.den / value.num)).length
    if value.den ≤ value.num * Nat.pow 10 (length - 1) then -Int.ofNat (length - 1)
    else -Int.ofNat length

/-- The rational numbers that are rounded to one float, with or without the two ends. -/
structure RoundingInterval where
  lower : Ratio
  upper : Ratio
  closed : Bool

namespace RoundingInterval

/-- The numbers that are rounded to the float `mantissa · 2 ^ exponent`: half way to either
neighbour, where the lower neighbour of a power of two is twice as near as the upper one. -/
def around (mantissa : Nat) (exponent : Int) : RoundingInterval :=
  let gap := if mantissa = Nat.pow 2 52 ∧ -1074 < exponent then 1 else 2
  { lower := Ratio.ofScaled (4 * mantissa - gap) 2 (exponent - 2)
    upper := Ratio.ofScaled (4 * mantissa + 2) 2 (exponent - 2)
    closed := mantissa % 2 == 0 }

/-- Whether a number is rounded to the float. -/
def contains (interval : RoundingInterval) (value : Ratio) : Bool :=
  if interval.closed then interval.lower.le value && value.le interval.upper
  else interval.lower.lt value && value.lt interval.upper

end RoundingInterval

/-- The point of a decimal grid that reads back and is nearest to the value, if there is one; of
two equally near ones the even one. -/
def nearestOnGrid? (interval : RoundingInterval) (value : Ratio) (exponent : Int) : Option Digits :=
  let scaled := value.dividedBy (Ratio.ofScaled 1 10 exponent)
  let below : Digits := ⟨scaled.num / scaled.den, exponent⟩
  let above : Digits := ⟨below.digits + 1, exponent⟩
  let twice := 2 * (scaled.num % scaled.den)
  let belowNearer := twice < scaled.den || (twice == scaled.den && below.digits % 2 == 0)
  let first := if belowNearer then below else above
  let second := if belowNearer then above else below
  if interval.contains first.ratio then some first
  else if interval.contains second.ratio then some second
  else none

/-- The fewest digits that read back as the positive float `mantissa · 2 ^ exponent`. -/
def shortest (mantissa : Nat) (exponent : Int) : Digits :=
  let interval := RoundingInterval.around mantissa exponent
  let value := Ratio.ofScaled mantissa 2 exponent
  let leading := leadingExponent value
  let found := (List.range 17).findSome? fun places =>
    nearestOnGrid? interval value (leading - Int.ofNat places)
  (found.getD ⟨mantissa, exponent⟩).stripZeros 17

/-- How a decimal number is laid out: from which position of the leading digit it is written
with an exponent. -/
structure Layout where
  /-- Numbers of more integer digits than this are written with an exponent. -/
  mostIntegerDigits : Int
  /-- Numbers with more zeros than this behind the point are written with an exponent. -/
  mostLeadingZeros : Int

/-- Numbers below 10^16 and from 10^-5 are written without an exponent. -/
def Layout.standard : Layout := ⟨16, 4⟩

/-- The text of a positive decimal number: positional with at least one decimal place, or one
integer digit and a signed exponent. -/
def Layout.render (layout : Layout) (number : Digits) : String :=
  let text := (toString number.digits).toList
  let point := Int.ofNat text.length + number.exponent
  let zeros (count : Int) : List Char := List.replicate count.toNat '0'
  String.ofList <|
    if layout.mostIntegerDigits < point ∨ point < -layout.mostLeadingZeros then
      let fraction := if text.length ≤ 1 then [] else '.' :: text.drop 1
      let sign := if point - 1 < 0 then '-' else '+'
      text.take 1 ++ fraction ++ 'e' :: sign :: (toString (point - 1).natAbs).toList
    else if point ≤ 0 then
      '0' :: '.' :: (zeros (-point) ++ text)
    else if 0 ≤ number.exponent then
      text ++ zeros number.exponent ++ ['.', '0']
    else
      text.take point.toNat ++ '.' :: text.drop point.toNat

/-- The text of a float; `none` for infinities and for what is not a number. -/
def render? (x : Float) : Option String :=
  let binary := Binary.ofFloat x
  let sign := if binary.negative then "-" else ""
  match binary.magnitude with
  | .notANumber | .infinite => none
  | .finite 0 _ => some (sign ++ "0.0")
  | .finite mantissa exponent =>
      some (sign ++ Layout.standard.render (shortest mantissa exponent))

end Vitals.Decimal
