/-!
# Readers of text

A reader consumes characters from the front of a text and gives a value, or refuses. Alternatives
start again where the refused reader started. A loop takes at most as many items as characters are
left, which ends none early whose items consume.
-/

namespace Vitals.Text

/-- A computation that consumes characters from the front of a text, or refuses. -/
abbrev Reader := StateT (List Char) Option

namespace Reader

variable {α : Type}

/-- The next character, not consumed. -/
def peek? : Reader (Option Char) := do
  return (← get).head?

/-- Consumes one character with a property. -/
def satisfy (accepts : Char → Bool) : Reader Char := do
  match ← get with
  | c :: rest => if accepts c then set rest; return c else failure
  | [] => failure

/-- Consumes one given character. -/
def char (expected : Char) : Reader Unit := do
  discard <| satisfy (· == expected)

/-- Consumes one given character if it comes next, and says whether it did. -/
def optionalChar (expected : Char) : Reader Bool := do
  match ← get with
  | c :: rest => if c == expected then set rest; return true else return false
  | [] => return false

/-- Consumes a given text. -/
def text (expected : String) : Reader Unit :=
  expected.toList.forM char

/-- Consumes the longest run of characters with a property. -/
def takeWhile (accepts : Char → Bool) : Reader (List Char) := do
  let chars ← get
  set (chars.dropWhile accepts)
  return chars.takeWhile accepts

/-- Consumes the longest run of characters with a property, at least one. -/
def takeWhile1 (accepts : Char → Bool) : Reader (List Char) := do
  let chars ← takeWhile accepts
  if chars.isEmpty then failure else return chars

/-- Consumes the longest run of characters with a property and drops it. -/
def skipWhile (accepts : Char → Bool) : Reader Unit :=
  discard <| takeWhile accepts

/-- The values of at most `bound` items in a row. -/
def manyUpTo (item : Reader α) : Nat → Reader (List α)
  | 0 => return []
  | bound + 1 => do
      match item (← get) with
      | some (value, rest) =>
          set rest
          return value :: (← manyUpTo item bound)
      | none => return []

/-- The values of all items in a row; the row ends before the first item that is refused. -/
def many (item : Reader α) : Reader (List α) := do
  manyUpTo item (← get).length

/-- Succeeds at the end of the text only. -/
def atEnd : Reader Unit := do
  if (← get).isEmpty then return else failure

/-- The value of a reader that consumes a whole text. -/
def all? (reader : Reader α) (source : List Char) : Option α :=
  ((do let value ← reader; atEnd; return value : Reader α) source).map Prod.fst

end Reader

def isDigit (c : Char) : Bool := '0' ≤ c && c ≤ '9'

/-- The value of a hexadecimal digit, in either case. -/
def hexValue? (c : Char) : Option Nat :=
  if '0' ≤ c && c ≤ '9' then some (c.toNat - '0'.toNat)
  else if 'a' ≤ c && c ≤ 'f' then some (c.toNat - 'a'.toNat + 10)
  else if 'A' ≤ c && c ≤ 'F' then some (c.toNat - 'A'.toNat + 10)
  else none

/-- The number that hexadecimal digits write; `none` at a character that is none. -/
def ofHexDigits? (chars : List Char) : Option Nat :=
  chars.foldlM (fun value c => (hexValue? c).map (value * 16 + ·)) 0

/-- The number that decimal digits write. -/
def ofDigits (chars : List Char) : Nat :=
  chars.foldl (fun value c => value * 10 + (c.toNat - '0'.toNat)) 0

/-- A number with at least `width` decimal digits, zeros in front. -/
def zeroPadded (width number : Nat) : String :=
  let text := toString number
  String.ofList (List.replicate (width - text.length) '0') ++ text

/-- A text of at least `width` characters, spaces behind. -/
def padded (width : Nat) (text : String) : String :=
  text ++ String.ofList (List.replicate (width - text.length) ' ')

end Vitals.Text
