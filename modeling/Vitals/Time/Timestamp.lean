import Vitals.Text.Blank
import Vitals.Text.Reader

/-!
# Timestamps

An instant of Coordinated Universal Time on the proleptic Gregorian calendar, to the nanosecond.
A leap second is the second 59 of its minute with a nanosecond count of a whole second or more.

`Timestamp.render` writes RFC 3339 with the fewest of 0, 3, 6 or 9 fraction digits that lose
nothing. `Timestamp.read?` reads what `render` writes and more: blanks between the parts, one
digit where two are usual, years of any length behind a sign, a space for the `T`, the zone as
`UTC` or as an offset with or without a colon.
-/

namespace Vitals

open Text

/-- A day of the calendar. -/
structure Date where
  year : Int
  month : Nat
  day : Nat
  deriving DecidableEq, Repr

namespace Date

/-- A leap year of the Gregorian rule. -/
def isLeapYear (year : Int) : Bool :=
  year % 4 == 0 && (year % 100 != 0 || year % 400 == 0)

def daysInMonth (year : Int) (month : Nat) : Nat :=
  match month with
  | 2 => if isLeapYear year then 29 else 28
  | 4 | 6 | 9 | 11 => 30
  | _ => 31

/-- The number of a date, with 1970-01-01 as 0. Years count from March, so that the leap day is
the last day of its year. -/
def toDayNumber (date : Date) : Int :=
  let year := if date.month ≤ 2 then date.year - 1 else date.year
  let era := year / 400
  let yearOfEra := year - era * 400
  let month : Int := if date.month ≤ 2 then date.month + 9 else date.month - 3
  let dayOfYear := (153 * month + 2) / 5 + date.day - 1
  let dayOfEra := yearOfEra * 365 + yearOfEra / 4 - yearOfEra / 100 + dayOfYear
  era * 146097 + dayOfEra - 719468

def ofDayNumber (number : Int) : Date :=
  let shifted := number + 719468
  let era := shifted / 146097
  let dayOfEra := shifted - era * 146097
  let yearOfEra := (dayOfEra - dayOfEra / 1460 + dayOfEra / 36524 - dayOfEra / 146096) / 365
  let dayOfYear := dayOfEra - (365 * yearOfEra + yearOfEra / 4 - yearOfEra / 100)
  let shiftedMonth := (5 * dayOfYear + 2) / 153
  let day := dayOfYear - (153 * shiftedMonth + 2) / 5 + 1
  let month := if shiftedMonth < 10 then shiftedMonth + 3 else shiftedMonth - 9
  let year := yearOfEra + era * 400
  ⟨if month ≤ 2 then year + 1 else year, month.toNat, day.toNat⟩

end Date

/-- An instant: the number of its day, the second of the day, and the nanosecond of the second,
which reaches two whole seconds in a leap second. -/
structure Timestamp where
  day : Int
  second : Nat
  nano : Nat
  deriving DecidableEq, Repr

namespace Timestamp

/-- Midnight of 1970-01-01. -/
def epoch : Timestamp := ⟨0, 0, 0⟩

instance : Inhabited Timestamp := ⟨epoch⟩

/-- The first and the last day a timestamp can fall on. -/
def firstDay : Int := Date.toDayNumber ⟨-262143, 1, 1⟩

@[inherit_doc firstDay]
def lastDay : Int := Date.toDayNumber ⟨262142, 12, 31⟩

/-- A year of four digits; years outside 0 to 9999 carry a sign. -/
def renderYear (year : Int) : String :=
  if 0 ≤ year ∧ year ≤ 9999 then zeroPadded 4 year.toNat
  else (if year < 0 then "-" else "+") ++ zeroPadded 4 year.natAbs

/-- The fraction of a second, in thousands of as small a unit as needed. -/
def renderFraction (nano : Nat) : String :=
  if nano = 0 then ""
  else if nano % 1000000 = 0 then "." ++ zeroPadded 3 (nano / 1000000)
  else if nano % 1000 = 0 then "." ++ zeroPadded 6 (nano / 1000)
  else "." ++ zeroPadded 9 nano

def render (timestamp : Timestamp) : String :=
  let date := Date.ofDayNumber timestamp.day
  let second := timestamp.second % 60 + timestamp.nano / 1000000000
  renderYear date.year ++ "-" ++ zeroPadded 2 date.month ++ "-" ++ zeroPadded 2 date.day
    ++ "T" ++ zeroPadded 2 (timestamp.second / 3600)
    ++ ":" ++ zeroPadded 2 (timestamp.second / 60 % 60)
    ++ ":" ++ zeroPadded 2 second ++ renderFraction (timestamp.nano % 1000000000) ++ "Z"

def skipBlanks : Reader Unit := Reader.skipWhile isBlank

/-- A number of one or two digits behind optional blanks. -/
def readPair : Reader Nat := do
  skipBlanks
  let first ← Reader.satisfy isDigit
  match ← Reader.peek? with
  | some c =>
      if isDigit c then
        let second ← Reader.satisfy isDigit
        return ofDigits [first, second]
      else return ofDigits [first]
  | none => return ofDigits [first]

/-- A year behind optional blanks: up to four digits, or any number of them behind a sign. -/
def readYear : Reader Int := do
  skipBlanks
  if ← Reader.optionalChar '-' then
    return -Int.ofNat (ofDigits (← Reader.takeWhile1 isDigit))
  else if ← Reader.optionalChar '+' then
    return Int.ofNat (ofDigits (← Reader.takeWhile1 isDigit))
  else
    let chars ← get
    let digits := (chars.take 4).takeWhile isDigit
    if digits.isEmpty then failure
    set (chars.drop digits.length)
    return Int.ofNat (ofDigits digits)

def readSeparator (separator : Char) : Reader Unit := do
  skipBlanks
  Reader.char separator

/-- The nanoseconds behind a point; digits beyond the ninth are dropped. -/
def readFraction : Reader Nat := do
  if ← Reader.optionalChar '.' then
    let digits := (← Reader.takeWhile1 isDigit).take 9
    return ofDigits digits * Nat.pow 10 (9 - digits.length)
  else return 0

/-- An offset from universal time in seconds: `Z`, `UTC`, or a sign with hours and minutes. -/
def readOffset : Reader Int := do
  let chars ← get
  match chars with
  | 'Z' :: rest | 'z' :: rest => set rest; return 0
  | u :: t :: c :: rest =>
      if u.toLower == 'u' && t.toLower == 't' && c.toLower == 'c' then
        set rest
        return 0
      else numeric
  | _ => numeric
where
  /-- The offset of a sign, two digits of hours, colons or blanks, two digits of minutes. -/
  numeric : Reader Int := do
    let sign ← Reader.satisfy fun c => c == '+' || c == '-' || c == '−'
    let hours := ofDigits [← Reader.satisfy isDigit, ← Reader.satisfy isDigit]
    Reader.skipWhile fun c => c == ':' || isBlank c
    let tens ← Reader.satisfy fun c => '0' ≤ c && c ≤ '5'
    let minutes := ofDigits [tens, ← Reader.satisfy isDigit]
    let seconds := Int.ofNat (hours * 3600 + minutes * 60)
    return if sign == '+' then seconds else -seconds

/-- The instant of a date and a time of day at an offset, if the calendar has it. -/
def ofParts? (date : Date) (hour minute second nano : Nat) (offset : Int) : Option Timestamp :=
  let leap := if second = 60 then 1 else 0
  let seconds := Int.ofNat (hour * 3600 + minute * 60 + (second - leap)) - offset
  let day := date.toDayNumber + seconds / 86400
  let dateExists := 1 ≤ date.month ∧ date.month ≤ 12 ∧ 1 ≤ date.day
    ∧ date.day ≤ Date.daysInMonth date.year date.month
    ∧ firstDay ≤ date.toDayNumber ∧ date.toDayNumber ≤ lastDay
  if dateExists ∧ hour ≤ 23 ∧ minute ≤ 59 ∧ second ≤ 60 ∧ offset.natAbs < 86400
      ∧ firstDay ≤ day ∧ day ≤ lastDay then
    some ⟨day, (seconds % 86400).toNat, nano + leap * 1000000000⟩
  else none

/-- A date, a separator, a time of day and an offset. -/
def reader : Reader Timestamp := do
  let year ← readYear
  readSeparator '-'
  let month ← readPair
  readSeparator '-'
  let day ← readPair
  discard <| Reader.satisfy fun c => c == 't' || c == 'T' || c == ' '
  let hour ← readPair
  readSeparator ':'
  let minute ← readPair
  readSeparator ':'
  let second ← readPair
  let nano ← readFraction
  skipBlanks
  let offset ← readOffset
  skipBlanks
  match ofParts? ⟨year, month, day⟩ hour minute second nano offset with
  | some timestamp => return timestamp
  | none => failure

def read? (source : String) : Option Timestamp :=
  reader.all? source.toList

end Timestamp

end Vitals
