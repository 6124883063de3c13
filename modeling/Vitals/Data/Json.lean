import Vitals.Data.Value
import Vitals.Decimal.Reading
import Vitals.Decimal.Shortest
import Vitals.Text.Reader

/-!
# JSON texts

`Json.read?` turns a text into a tree, `Json.render` and `Json.renderPretty` turn a tree into a
text. Reading goes in two passes: the text becomes a list of tokens, and the tokens are fed one by
one to a machine that holds the containers still open. The machine is one function of a state and
a token, so reading a text is a fold.

Containers more than `Json.deepest` levels deep, numbers beyond the largest float and texts with
half a surrogate pair become `Value.unreadable`.
-/

namespace Vitals.Json

open Text

/-- The number of levels that containers can be nested. -/
def deepest : Nat := 127

/-- A lexical unit of a JSON text. -/
inductive Token where
  | openList
  | closeList
  | openTable
  | closeTable
  | comma
  | colon
  /-- A quoted text; `none` if it holds half a surrogate pair. -/
  | quoted (content : Option String)
  /-- A number or one of the words `null`, `true` and `false`. -/
  | scalar (value : Value)

/-! ## Quoted texts -/

/-- A part of a quoted text: a character, or a 16-bit unit that an escape writes. -/
inductive Piece where
  | char (c : Char)
  | unit (code : Nat)

def shortEscape? : Char → Option Char
  | '"' => some '"'
  | '\\' => some '\\'
  | '/' => some '/'
  | 'b' => some '\x08'
  | 'f' => some '\x0c'
  | 'n' => some '\n'
  | 'r' => some '\r'
  | 't' => some '\t'
  | _ => none

/-- The pieces of a quoted text behind its opening quote, and what follows the closing one. -/
def pieces? : List Char → Option (List Piece × List Char)
  | [] => none
  | '"' :: rest => some ([], rest)
  | '\\' :: 'u' :: a :: b :: c :: d :: rest => do
      let code ← ofHexDigits? [a, b, c, d]
      let (others, after) ← pieces? rest
      return (.unit code :: others, after)
  | '\\' :: escape :: rest => do
      let c ← shortEscape? escape
      let (others, after) ← pieces? rest
      return (.char c :: others, after)
  | c :: rest => do
      if c.toNat < 0x20 ∨ c = '\\' then none
      let (others, after) ← pieces? rest
      return (.char c :: others, after)

/-- The first unit of a surrogate pair. -/
def isHighSurrogate (code : Nat) : Bool := 0xD800 ≤ code && code ≤ 0xDBFF

/-- The second unit of a surrogate pair. -/
def isLowSurrogate (code : Nat) : Bool := 0xDC00 ≤ code && code ≤ 0xDFFF

/-- The characters of the pieces; `none` if a surrogate has no partner. -/
def joinPieces? : List Piece → Option (List Char)
  | [] => some []
  | .char c :: rest => (joinPieces? rest).map (c :: ·)
  | .unit high :: rest =>
      if isHighSurrogate high then
        match rest with
        | .unit low :: rest =>
            if isLowSurrogate low then
              let code := 0x10000 + (high - 0xD800) * 0x400 + (low - 0xDC00)
              (joinPieces? rest).map (Char.ofNat code :: ·)
            else none
        | _ => none
      else if isLowSurrogate high then none
      else (joinPieces? rest).map (Char.ofNat high :: ·)

/-! ## Numbers -/

/-- The parts of a number as written. -/
structure Literal where
  negative : Bool
  whole : List Char
  fraction : Option (List Char)
  exponent : Option (Bool × List Char)

/-- As many leading digits as stay below 2 ^ 64, and how many digits follow them. -/
def significantDigits (digits : List Char) (start : Nat) : Nat × Nat :=
  match digits with
  | [] => (start, 0)
  | c :: rest =>
      let next := start * 10 + (c.toNat - '0'.toNat)
      if next < UInt64.size then significantDigits rest next else (start, digits.length)

/-- The power of ten that the exponent of a literal adds. -/
def exponentOf : Option (Bool × List Char) → Int
  | none => 0
  | some (negative, digits) =>
      if negative then -Int.ofNat (ofDigits digits) else Int.ofNat (ofDigits digits)

/-- The value of a number that has a fraction, an exponent or more than 64 bits: digits that
would carry the significand beyond 64 bits are dropped. -/
def Literal.float? (literal : Literal) : Option Float :=
  let (whole, droppedWhole) := significantDigits literal.whole 0
  let fraction := literal.fraction.getD []
  let (significand, droppedFraction) := significantDigits fraction whole
  let exponent := Int.ofNat droppedWhole - Int.ofNat (fraction.length - droppedFraction)
  let scaled := Decimal.quick? significand (exponent + exponentOf literal.exponent)
  if literal.negative then scaled.map (- ·) else scaled

/-- The value of a number: whole numbers stay whole while 64 bits with or without a sign hold
them, and minus zero is a float. -/
def Literal.value (literal : Literal) : Value :=
  let magnitude := ofDigits literal.whole
  let isWhole := literal.fraction.isNone && literal.exponent.isNone
  let limit := if literal.negative then UInt64.size / 2 + 1 else UInt64.size
  if isWhole && !literal.negative && magnitude < limit then .int magnitude
  else if isWhole && literal.negative && 0 < magnitude && magnitude < limit then .int (-magnitude)
  else match literal.float? with
    | some number => .float number
    | none => .unreadable

/-- An exponent, if the letter of one comes next. -/
def readExponent : Reader (Option (Bool × List Char)) := do
  match ← Reader.peek? with
  | some 'e' | some 'E' =>
      discard <| Reader.satisfy fun _ => true
      let negative ← Reader.optionalChar '-'
      unless negative do discard <| Reader.optionalChar '+'
      return some (negative, ← Reader.takeWhile1 isDigit)
  | _ => return none

/-- A number: no leading zeros, and a digit on both sides of a point. -/
def readLiteral : Reader Literal := do
  let negative ← Reader.optionalChar '-'
  let whole ← Reader.takeWhile1 isDigit
  if whole.head? = some '0' ∧ 1 < whole.length then failure
  let fraction ←
    if ← Reader.optionalChar '.' then some <$> Reader.takeWhile1 isDigit else pure none
  return ⟨negative, whole, fraction, ← readExponent⟩

/-! ## Tokens -/

/-- A space, a tab or the end of a line. -/
def isSpace (c : Char) : Bool := c == ' ' || c == '\t' || c == '\n' || c == '\r'

/-- The first token of a text that starts with none of the blanks. -/
def token? : List Char → Option (Token × List Char)
  | '[' :: rest => some (.openList, rest)
  | ']' :: rest => some (.closeList, rest)
  | '{' :: rest => some (.openTable, rest)
  | '}' :: rest => some (.closeTable, rest)
  | ',' :: rest => some (.comma, rest)
  | ':' :: rest => some (.colon, rest)
  | '"' :: rest => do
      let (pieces, after) ← pieces? rest
      return (.quoted ((joinPieces? pieces).map String.ofList), after)
  | 'n' :: 'u' :: 'l' :: 'l' :: rest => some (.scalar .null, rest)
  | 't' :: 'r' :: 'u' :: 'e' :: rest => some (.scalar (.bool true), rest)
  | 'f' :: 'a' :: 'l' :: 's' :: 'e' :: rest => some (.scalar (.bool false), rest)
  | chars => do
      let (literal, rest) ← readLiteral chars
      return (.scalar literal.value, rest)

/-- The tokens of a text of at most `bound` characters. -/
def tokensUpTo? : Nat → List Token → List Char → Option (List Token)
  | 0, found, chars => if chars.isEmpty then some found.reverse else none
  | bound + 1, found, chars =>
      match chars with
      | [] => some found.reverse
      | c :: rest =>
          if isSpace c then tokensUpTo? bound found rest
          else do
            let (token, after) ← token? (c :: rest)
            tokensUpTo? bound (token :: found) after

def tokens? (chars : List Char) : Option (List Token) :=
  tokensUpTo? chars.length [] chars

/-! ## The machine -/

/-- A container still open: the items so far in reverse, and for a table the key whose value is
awaited. A container with an unreadable key is unreadable as a whole. -/
inductive Frame where
  | list (items : List Value)
  | table (entries : List (String × Value)) (key : String) (readable : Bool)

/-- What may come next. -/
inductive Phase where
  | value
  | firstItem
  | firstKey
  | key
  | colon
  | separator
  | done (value : Value)

/-- The containers still open, innermost first, and what may come next. -/
structure Machine where
  frames : List Frame
  phase : Phase

namespace Machine

/-- Nothing is open and a value must come. -/
def start : Machine := ⟨[], .value⟩

/-- Hands a finished value to the innermost open container. -/
def supply (frames : List Frame) (value : Value) : Machine :=
  match frames with
  | [] => ⟨[], .done value⟩
  | .list items :: outer => ⟨.list (value :: items) :: outer, .separator⟩
  | .table entries key readable :: outer =>
      ⟨.table ((key, value) :: entries) key readable :: outer, .separator⟩

/-- The value of a container that closes with `outer` containers still open. -/
def close (outer : List Frame) (value : Value) : Machine :=
  supply outer (if deepest ≤ outer.length then .unreadable else value)

/-- The state after one more token; `none` if the token may not come here. -/
def step? (machine : Machine) (token : Token) : Option Machine :=
  match machine.phase, token, machine.frames with
  | .value, .scalar value, frames | .firstItem, .scalar value, frames =>
      some (supply frames value)
  | .value, .quoted content, frames | .firstItem, .quoted content, frames =>
      some (supply frames (match content with
        | some content => .text content
        | none => .unreadable))
  | .value, .openList, frames | .firstItem, .openList, frames =>
      some ⟨.list [] :: frames, .firstItem⟩
  | .value, .openTable, frames | .firstItem, .openTable, frames =>
      some ⟨.table [] "" true :: frames, .firstKey⟩
  | .firstItem, .closeList, .list items :: outer => some (close outer (.list items.reverse))
  | .separator, .closeList, .list items :: outer => some (close outer (.list items.reverse))
  | .firstKey, .closeTable, .table entries _ readable :: outer
  | .separator, .closeTable, .table entries _ readable :: outer =>
      some (close outer (if readable then .table entries.reverse else .unreadable))
  | .firstKey, .quoted content, .table entries _ readable :: outer
  | .key, .quoted content, .table entries _ readable :: outer =>
      some ⟨.table entries (content.getD "") (readable && content.isSome) :: outer, .colon⟩
  | .colon, .colon, frames => some ⟨frames, .value⟩
  | .separator, .comma, .list items :: outer => some ⟨.list items :: outer, .value⟩
  | .separator, .comma, .table entries key readable :: outer =>
      some ⟨.table entries key readable :: outer, .key⟩
  | _, _, _ => none

/-- The value of a machine that has read a whole text. -/
def result? (machine : Machine) : Option Value :=
  match machine.phase with
  | .done value => some value
  | _ => none

end Machine

/-- The tree that a JSON text writes. -/
def read? (source : String) : Option Value := do
  let tokens ← tokens? source.toList
  (← tokens.foldlM Machine.step? Machine.start).result?

/-! ## Writing -/

def hexDigit (number : Nat) : Char := "0123456789abcdef".toList.getD number '0'

/-- A character as it stands between quotes. -/
def escapeChar (c : Char) : List Char :=
  match c with
  | '"' => ['\\', '"']
  | '\\' => ['\\', '\\']
  | '\x08' => ['\\', 'b']
  | '\x0c' => ['\\', 'f']
  | '\n' => ['\\', 'n']
  | '\r' => ['\\', 'r']
  | '\t' => ['\\', 't']
  | c =>
      if c.toNat < 0x20 then ['\\', 'u', '0', '0', hexDigit (c.toNat / 16), hexDigit (c.toNat % 16)]
      else [c]

/-- A text between quotes. -/
def quote (content : String) : String :=
  String.ofList ('"' :: content.toList.flatMap escapeChar ++ ['"'])

/-- A number that may have a fraction; what is no number is `null`. -/
def renderFloat (number : Float) : String :=
  (Decimal.render? number).getD "null"

mutual

/-- A tree without blanks. -/
def render : Value → String
  | .null | .unreadable => "null"
  | .bool flag => if flag then "true" else "false"
  | .int number => toString number
  | .float number => renderFloat number
  | .text content => quote content
  | .list items => "[" ++ renderItems items ++ "]"
  | .table entries => "\x7b" ++ renderEntries entries ++ "\x7d"

/-- The items of a list with commas between them. -/
def renderItems : List Value → String
  | [] => ""
  | [item] => render item
  | item :: rest => render item ++ "," ++ renderItems rest

/-- The entries of a table with commas between them. -/
def renderEntries : List (String × Value) → String
  | [] => ""
  | [(key, value)] => quote key ++ ":" ++ render value
  | (key, value) :: rest => quote key ++ ":" ++ render value ++ "," ++ renderEntries rest

end

/-- The start of a line `depth` levels deep, two spaces a level. -/
def indentation (depth : Nat) : String :=
  "\n" ++ String.ofList (List.replicate (2 * depth) ' ')

mutual

/-- A tree with every item and entry on a line of its own; `depth` is the level it stands on. -/
def renderPretty (depth : Nat) : Value → String
  | .list [] => "[]"
  | .table [] => "\x7b\x7d"
  | .list items => "[" ++ prettyItems (depth + 1) items ++ indentation depth ++ "]"
  | .table entries => "\x7b" ++ prettyEntries (depth + 1) entries ++ indentation depth ++ "\x7d"
  | value => render value

/-- The items of a list, each on its own line. -/
def prettyItems (depth : Nat) : List Value → String
  | [] => ""
  | [item] => indentation depth ++ renderPretty depth item
  | item :: rest => indentation depth ++ renderPretty depth item ++ "," ++ prettyItems depth rest

/-- The entries of a table, each on its own line. -/
def prettyEntries (depth : Nat) : List (String × Value) → String
  | [] => ""
  | [(key, value)] => indentation depth ++ quote key ++ ": " ++ renderPretty depth value
  | (key, value) :: rest =>
      indentation depth ++ quote key ++ ": " ++ renderPretty depth value ++ ","
        ++ prettyEntries depth rest

end

end Vitals.Json
