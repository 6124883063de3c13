import Vitals.Data.Toml.Scalar
import Vitals.Data.Toml.Text
import Vitals.Data.Toml.Tree

/-!
# TOML documents

A document is a list of statements, at most one on a line: headers of tables, and keys with
values. `Toml.read?` reads the statements and builds the tree they describe; a document that is
not well formed, or whose statements contradict each other, has none.
-/

namespace Vitals.Toml

open Text

/-- A key with the tables before it, outermost first. -/
structure Path where
  tables : List String
  key : String
  deriving DecidableEq, Repr

namespace Path

def keys (path : Path) : List String := path.tables ++ [path.key]

/-- The path of a first key and further ones. -/
def ofKeys (first : String) : List String → Path
  | [] => ⟨[], first⟩
  | second :: rest =>
      let inner := ofKeys second rest
      ⟨first :: inner.tables, inner.key⟩

end Path

inductive Statement where
  /-- The header of a table: `[a.b]`. -/
  | table (path : Path)
  /-- The header of one table of a list: `[[a.b]]`. -/
  | element (path : Path)
  /-- A key with its value: `a.b = 1`. -/
  | entry (path : Path) (value : Value)

/-! ## Blanks and keys -/

/-- Consumes blanks. -/
def skipSpace : Reader Unit := Reader.skipWhile isSpace

/-- Consumes a comment if one comes next. -/
def skipComment : Reader Unit := do
  if ← Reader.optionalChar '#' then Reader.skipWhile isPlain

/-- Consumes blanks, comments and ends of lines. -/
def skipGap : Reader Unit := do
  skipSpace
  discard <| Reader.many do
    skipComment
    discard lineEnd
    skipSpace
  skipComment

/-- A character of a key without quotes. -/
def isKeyChar (c : Char) : Bool := c.isAlphanum || c == '_' || c == '-'

/-- A key, with quotes or without. -/
def simpleKey : Reader String :=
  (String.ofList <$> Reader.takeWhile1 isKeyChar) <|> shortText

/-- Keys with points between them; blanks around them do not count. -/
def path : Reader Path := do
  skipSpace
  let first ← simpleKey
  let others ← Reader.many do
    skipSpace
    Reader.char '.'
    skipSpace
    simpleKey
  skipSpace
  return Path.ofKeys first others

/-! ## Values -/

/-- The number of levels that lists and inline tables can be nested. -/
def deepest : Nat := 80

/-- A character of a scalar without quotes. -/
def isScalarChar (c : Char) : Bool :=
  c.isAlphanum || c == '_' || c == '-' || c == '+' || c == '.' || c == ':'

/-- A scalar without quotes. A blank belongs to it between a date and a time. -/
def bareScalar : Reader Value := do
  let first ← Reader.takeWhile1 isScalarChar
  let chars ←
    match ← get with
    | ' ' :: c :: _ =>
        if isDigit c && (date.all? first).isSome then
          Reader.char ' '
          pure (first ++ ' ' :: (← Reader.takeWhile1 isScalarChar))
        else pure first
    | _ => pure first
  match scalar? chars with
  | some value => return value
  | none => failure

/-- At most `bound` items with commas between them and an optional one behind the last, up to a
closing character. -/
def itemsUpTo {α : Type} (item : Reader α) (closing : Char) : Nat → Reader (List α)
  | 0 => failure
  | bound + 1 => do
      if ← Reader.optionalChar closing then return []
      let value ← item
      skipGap
      if ← Reader.optionalChar ',' then
        skipGap
        return value :: (← itemsUpTo item closing bound)
      else
        Reader.char closing
        return [value]

/-- Items with commas between them, up to a closing character; blanks, comments and ends of lines
around them do not count. -/
def items {α : Type} (item : Reader α) (closing : Char) : Reader (List α) := do
  skipGap
  itemsUpTo item closing (← get).length

/-- A key with its value, given a reader for the value. -/
def assignment (value : Reader Value) : Reader (Path × Value) := do
  let path ← path
  Reader.char '='
  skipSpace
  return (path, ← value)

def inlineTable? (entries : List (Path × Value)) : Option Value :=
  let define (body : Body) (entry : Path × Value) : Option Body :=
    body.define? entry.1.tables entry.1.key entry.2
  (entries.foldlM define []).map Body.toValue

/-- A value with at most `levels` levels of lists and inline tables. -/
def value (levels : Nat) : Reader Value := do
  match levels, ← Reader.peek? with
  | _, some '"' | _, some '\'' => .text <$> anyText
  | levels + 1, some '[' =>
      Reader.char '['
      return .list (← items (value levels) ']')
  | levels + 1, some '{' =>
      Reader.char '{'
      match inlineTable? (← items (assignment (value levels)) '}') with
      | some table => return table
      | none => failure
  | _, _ => bareScalar

/-! ## Statements -/

/-- A header, or a key with its value. -/
def statement : Reader Statement := do
  match ← get with
  | '[' :: '[' :: rest =>
      set rest
      let path ← path
      Reader.text "]]"
      return .element path
  | '[' :: rest =>
      set rest
      let path ← path
      Reader.char ']'
      return .table path
  | _ => do
      let (path, value) ← assignment (value deepest)
      return .entry path value

/-- A line without its end: a statement or nothing, and a comment or nothing. -/
def line : Reader (Option Statement) := do
  skipSpace
  let found ← part? statement
  skipSpace
  skipComment
  return found

def statements : Reader (List Statement) := do
  let lines ← Reader.many do
    let found ← line
    discard lineEnd
    return found
  let last ← line
  return (lines ++ [last]).filterMap id

/-! ## Documents -/

/-- A tree under construction: its entries, and the path of the last header. -/
structure Draft where
  body : Body
  header : List String

/-- The tree with one more statement. -/
def Draft.extend? (draft : Draft) : Statement → Option Draft
  | .table path =>
      (draft.body.openTable? path.tables path.key).map fun body => ⟨body, path.keys⟩
  | .element path =>
      (draft.body.openElement? path.tables path.key).map fun body => ⟨body, path.keys⟩
  | .entry path value =>
      (draft.body.defineUnder? draft.header path.tables path.key value).map fun body =>
        { draft with body := body }

/-- The tree that statements describe. -/
def ofStatements? (statements : List Statement) : Option Value :=
  (statements.foldlM Draft.extend? ⟨[], []⟩).map (·.body.toValue)

/-- The tree of a document; a byte order mark in front does not count. -/
def read? (source : String) : Option Value := do
  let chars :=
    match source.toList with
    | '\uFEFF' :: rest => rest
    | chars => chars
  ofStatements? (← statements.all? chars)

end Vitals.Toml
