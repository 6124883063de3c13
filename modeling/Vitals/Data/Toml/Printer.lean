import Vitals.Data.Toml.Document
import Vitals.Decimal.Shortest
import Vitals.Text.Quoted

/-!
# Writing TOML documents

A tree is written with one line for each entry of its root; the tables below the root are inline
tables. A tree with a null has no TOML document.
-/

namespace Vitals.Toml

open Text

/-- A character as it stands between double quotes. -/
def escapeChar (c : Char) : String :=
  match c with
  | '"' => "\\\""
  | '\\' => "\\\\"
  | '\n' => "\\n"
  | '\t' => "\\t"
  | c =>
      if isPlain c then c.toString
      else
        let digits := hexadecimal c.toNat
        "\\u" ++ String.ofList (List.replicate (4 - digits.length) '0') ++ digits

/-- A text between double quotes. -/
def quote (content : String) : String :=
  "\"" ++ String.join (content.toList.map escapeChar) ++ "\""

/-- A key, between quotes if it needs them. -/
def renderKey (key : String) : String :=
  if key ≠ "" ∧ key.toList.all isKeyChar then key else quote key

/-- A float, the shortest form that reads back. -/
def renderFloat (number : Float) : String :=
  match Decimal.render? number with
  | some text => text
  | none => if number.isNaN then "nan" else if number < 0.0 then "-inf" else "inf"

mutual

def renderInline? : Value → Option String
  | .null | .unreadable => none
  | .bool flag => some (if flag then "true" else "false")
  | .int number => some (toString number)
  | .float number => some (renderFloat number)
  | .text content => some (quote content)
  | .list items => (renderItems? items).map fun items => "[" ++ ", ".intercalate items ++ "]"
  | .table entries =>
      (renderEntries? entries).map fun entries => "\x7b" ++ ", ".intercalate entries ++ "\x7d"

def renderItems? : List Value → Option (List String)
  | [] => some []
  | item :: rest => do
      let item ← renderInline? item
      return item :: (← renderItems? rest)

def renderEntries? : List (String × Value) → Option (List String)
  | [] => some []
  | (key, value) :: rest => do
      let value ← renderInline? value
      return (renderKey key ++ " = " ++ value) :: (← renderEntries? rest)

end

/-- The document of a tree. -/
def render? : Value → Option String
  | .table entries =>
      (renderEntries? entries).map fun lines => String.join (lines.map (· ++ "\n"))
  | _ => none

end Vitals.Toml
