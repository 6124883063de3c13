import Vitals.Data.Value
import Vitals.Decimal.Reading
import Vitals.Text.Reader
import Vitals.Time.Timestamp

/-!
# TOML scalars without quotes

Truth values, whole numbers, floats, dates and times. A scalar is read from the characters it
consists of; each form has a reader of its own that must consume all of them, and no text has two
forms.
-/

namespace Vitals.Toml

open Text

/-- A part that may come next: what a reader gives, or nothing if it refuses. -/
def part? {α : Type} (reader : Reader α) : Reader (Option α) := fun chars =>
  match reader chars with
  | some (value, rest) => some (some value, rest)
  | none => some (none, chars)

/-! ## Numbers -/

/-- Digits of some kind, in groups with underscores between them. -/
def digitGroups (accepts : Char → Bool) : Reader (List Char) := do
  let first ← Reader.takeWhile1 accepts
  let others ← Reader.many do
    Reader.char '_'
    Reader.takeWhile1 accepts
  return first ++ others.flatten

/-- Decimal digits without leading zeros. -/
def plainDigits : Reader (List Char) := do
  let digits ← digitGroups isDigit
  if digits.head? = some '0' ∧ 1 < digits.length then failure else return digits

/-- A sign, if one comes next; `true` for a minus. -/
def sign : Reader (Option Bool) := do
  if ← Reader.optionalChar '-' then return some true
  else if ← Reader.optionalChar '+' then return some false
  else return none

def signed (negative : Option Bool) (magnitude : Nat) : Int :=
  if negative = some true then -Int.ofNat magnitude else Int.ofNat magnitude

/-- The whole numbers that can be written: 128 bits with a sign, or without one. -/
def isWritable (number : Int) : Bool :=
  -Int.ofNat (Nat.pow 2 127) ≤ number && number < Int.ofNat (Nat.pow 2 128)

/-- The value of digits to a base of at most sixteen. -/
def ofDigitsIn (base : Nat) (digits : List Char) : Nat :=
  digits.foldl (fun value c => value * base + (hexValue? c).getD 0) 0

/-- A whole number in decimal digits, or behind `0x`, `0o` or `0b` without a sign. -/
def integer : Reader Value := do
  let number ←
    match ← get with
    | '0' :: 'x' :: rest => set rest; based 16
    | '0' :: 'o' :: rest => set rest; based 8
    | '0' :: 'b' :: rest => set rest; based 2
    | _ => decimal
  if isWritable number then return .int number else failure
where
  /-- A number in decimal digits. -/
  decimal : Reader Int := do
    let negative ← sign
    return signed negative (ofDigits (← plainDigits))
  /-- A number in digits to a base. -/
  based (base : Nat) : Reader Int := do
    let digits ← digitGroups fun c => (hexValue? c).any (· < base)
    return Int.ofNat (ofDigitsIn base digits)

def exponent : Reader Int := do
  discard <| Reader.satisfy fun c => c == 'e' || c == 'E'
  let negative ← sign
  return signed negative (ofDigits (← digitGroups isDigit))

/-- The digits behind a point. -/
def fraction : Reader (List Char) := do
  Reader.char '.'
  digitGroups isDigit

/-- A float: `inf` and `nan` with or without a sign, or decimal digits with a fraction, an
exponent or both. What is written in digits must not be infinite. -/
def float : Reader Value := do
  let negative ← sign
  let magnitude ←
    match ← get with
    | 'i' :: 'n' :: 'f' :: rest => set rest; pure (1.0 / 0.0)
    | 'n' :: 'a' :: 'n' :: rest => set rest; pure (0.0 / 0.0)
    | _ => finite
  return .float (if negative = some true then -magnitude else magnitude)
where
  /-- A number in digits. -/
  finite : Reader Float := do
    let whole ← plainDigits
    let fraction ← part? fraction
    let exponent ← part? exponent
    if fraction.isNone ∧ exponent.isNone then failure
    let digits := fraction.getD []
    let number := Decimal.nearestOf (ofDigits (whole ++ digits))
      (exponent.getD 0 - Int.ofNat digits.length)
    if number.isInf then failure else return number

/-! ## Dates and times -/

/-- A number of exactly `count` digits. -/
def fixedDigits (count : Nat) : Reader Nat := do
  let digits ← (List.replicate count ()).mapM fun _ => Reader.satisfy isDigit
  return ofDigits digits

def pairUpTo (bound : Nat) : Reader Nat := do
  let number ← fixedDigits 2
  if number ≤ bound then return number else failure

/-- A day of the calendar as `1979-05-27`. -/
def date : Reader String := do
  let year ← fixedDigits 4
  Reader.char '-'
  let month ← fixedDigits 2
  Reader.char '-'
  let day ← fixedDigits 2
  if 1 ≤ month ∧ month ≤ 12 ∧ 1 ≤ day ∧ day ≤ Date.daysInMonth (Int.ofNat year) month then
    return zeroPadded 4 year ++ "-" ++ zeroPadded 2 month ++ "-" ++ zeroPadded 2 day
  else failure

/-- The seconds of a time, with a fraction of up to nine digits that count. -/
def seconds : Reader String := do
  Reader.char ':'
  let whole ← pairUpTo 60
  let fraction ← part? do
    Reader.char '.'
    Reader.takeWhile1 isDigit
  return ":" ++ zeroPadded 2 whole ++ match fraction with
    | none => ""
    | some digits =>
        let kept := ((digits.take 9).reverse.dropWhile (· == '0')).reverse
        "." ++ if kept.isEmpty then "0" else String.ofList kept

/-- A time of day as `07:32:00`; the seconds may be missing. -/
def time : Reader String := do
  let hour ← pairUpTo 23
  Reader.char ':'
  let minute ← pairUpTo 59
  return zeroPadded 2 hour ++ ":" ++ zeroPadded 2 minute ++ ((← part? seconds).getD "")

/-- An offset from universal time, `Z` or hours and minutes behind a sign. -/
def offset : Reader String := do
  if (← Reader.optionalChar 'Z') || (← Reader.optionalChar 'z') then return "Z"
  let some negative ← sign | failure
  let hours ← pairUpTo 23
  Reader.char ':'
  let minutes ← pairUpTo 59
  let sign := if negative ∧ 0 < hours + minutes then "-" else "+"
  return sign ++ zeroPadded 2 hours ++ ":" ++ zeroPadded 2 minutes

/-- A date, a time of day, or both with or without an offset. -/
def moment : Reader String := do
  match ← part? date with
  | none => time
  | some date =>
      let clock ← part? do
        discard <| Reader.satisfy fun c => c == 'T' || c == 't' || c == ' '
        return "T" ++ (← time) ++ ((← part? offset).getD "")
      return date ++ clock.getD ""

/-- The key under which a date or a time is handed on. -/
def momentKey : String := "$__toml_private_datetime"

/-- A date or a time is handed on as a table of one entry: no field of a record has that key, and
it holds the moment in its usual form. -/
def ofMoment (source : String) : Value := .table [(momentKey, .text source)]

/-! ## Scalars -/

/-- The scalar that consists of some characters. -/
def scalar? (chars : List Char) : Option Value :=
  if chars = "true".toList then some (.bool true)
  else if chars = "false".toList then some (.bool false)
  else integer.all? chars <|> float.all? chars <|> (moment.all? chars).map ofMoment

end Vitals.Toml
