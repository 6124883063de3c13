import Vitals.Text.Reader

/-!
# TOML texts

Texts between quotes. Double quotes allow escapes, single quotes do not; either may come three at
a time, and then the text may span lines and hold one or two quotes in a row.
-/

namespace Vitals.Toml

open Text

/-- A character that may stand in a text or a comment as it is: no control character but the
tab. -/
def isPlain (c : Char) : Bool :=
  c == '\t' || (0x20 ≤ c.toNat && c != '\x7f')

def isSpace (c : Char) : Bool := c == ' ' || c == '\t'

def lineEnd : Reader (List Char) := do
  match ← get with
  | '\n' :: rest => set rest; return ['\n']
  | '\r' :: '\n' :: rest => set rest; return ['\r', '\n']
  | _ => failure

/-- Consumes the end of a line if it comes next. -/
def skipLineEnd : Reader Unit := fun chars =>
  match lineEnd chars with
  | some (_, rest) => some ((), rest)
  | none => some ((), chars)

/-- The character of a number of exactly `count` hexadecimal digits. -/
def codePoint (count : Nat) : Reader Char := do
  let digits ← (List.replicate count ()).mapM fun _ =>
    Reader.satisfy fun c => (hexValue? c).isSome
  match ofHexDigits? digits with
  | some code => if code.isValidChar then return Char.ofNat code else failure
  | none => failure

/-- The character that an escape writes, behind its backslash. -/
def escape : Reader Char := do
  match ← Reader.satisfy fun _ => true with
  | 'b' => return '\x08'
  | 't' => return '\t'
  | 'n' => return '\n'
  | 'f' => return '\x0c'
  | 'r' => return '\r'
  | 'e' => return '\x1b'
  | '"' => return '"'
  | '\\' => return '\\'
  | 'x' => codePoint 2
  | 'u' => codePoint 4
  | 'U' => codePoint 8
  | _ => failure

/-- A character between double quotes, or an escape. -/
def basicChar : Reader Char := do
  let c ← Reader.satisfy fun c => isPlain c && c != '"'
  if c == '\\' then escape else return c

/-- A text between double quotes on one line. -/
def basicText : Reader (List Char) := do
  Reader.char '"'
  let chars ← Reader.many basicChar
  Reader.char '"'
  return chars

/-- A text between single quotes on one line. -/
def literalText : Reader (List Char) := do
  Reader.char '\''
  let chars ← Reader.takeWhile fun c => isPlain c && c != '\''
  Reader.char '\''
  return chars

/-- A backslash at the end of a line: it stands for nothing, and neither do the blanks and line
ends behind it. -/
def continuation : Reader (List Char) := do
  Reader.char '\\'
  Reader.skipWhile isSpace
  discard lineEnd
  discard <| Reader.many do
    match ← get with
    | c :: rest => if isSpace c then set rest else discard lineEnd
    | [] => failure
  return []

/-- One or two quotes that are not the end of a text between three. -/
def innerQuotes (quote : Char) : Reader (List Char) := do
  match ← get with
  | a :: b :: c :: rest =>
      if a != quote then failure
      else if b != quote then set (b :: c :: rest); return [a]
      else if c != quote then set (c :: rest); return [a, b]
      else failure
  | _ => failure

/-- The end of a text between three quotes, with one or two quotes that belong to the text. -/
def closingQuotes (quote : Char) : Reader (List Char) := do
  let run := (← get).takeWhile (· == quote)
  if run.length < 3 ∨ 5 < run.length then failure
  set ((← get).drop run.length)
  return run.drop 3

/-- The pieces of a text between three quotes. -/
def multiline (quote : Char) (piece : Reader (List Char)) : Reader (List Char) := do
  Reader.text (String.ofList [quote, quote, quote])
  skipLineEnd
  let pieces ← Reader.many (piece <|> lineEnd <|> innerQuotes quote)
  return pieces.flatten ++ (← closingQuotes quote)

/-- A text between three double quotes. -/
def multilineBasic : Reader (List Char) :=
  multiline '"' (continuation <|> (List.singleton <$> basicChar))

/-- A text between three single quotes. -/
def multilineLiteral : Reader (List Char) :=
  multiline '\'' (Reader.takeWhile1 fun c => isPlain c && c != '\'')

/-- A text of one line, as a key can be. -/
def shortText : Reader String := String.ofList <$> (basicText <|> literalText)

def anyText : Reader String :=
  String.ofList <$> (multilineBasic <|> multilineLiteral <|> basicText <|> literalText)

end Vitals.Toml
