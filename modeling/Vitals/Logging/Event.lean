import Vitals.Data.Json
import Vitals.Logging.Level
import Vitals.Result
import Vitals.Text.Quoted

/-!
# Log events

An event has a level, the name of the part it comes from, a message and fields. It is written as
a line of text or as a tree.
-/

namespace Vitals.Logging

inductive Field where
  /-- A text, written as it is. -/
  | plain (text : String)
  /-- A text, written between quotes. -/
  | quoted (text : String)
  | number (value : Nat)
  deriving DecidableEq, Repr

namespace Field

def render : Field → String
  | .plain text => text
  | .quoted text => Text.quoted text
  | .number value => toString value

def toValue : Field → Value
  | .plain text | .quoted text => .text text
  | .number value => .ofNat value

end Field

structure Event where
  level : Level
  target : String
  message : String
  fields : List (String × Field)
  deriving DecidableEq, Repr

namespace Event

/-- A character of a message in a line of text: what could steer a terminal is escaped. -/
def messageChar (c : Char) : String :=
  match c with
  | '\x1b' => "\\x1b"
  | '\x07' => "\\x07"
  | '\x08' => "\\x08"
  | '\x0c' => "\\x0c"
  | '\x7f' => "\\x7f"
  | c =>
      if 0x80 ≤ c.toNat && c.toNat ≤ 0x9F then
        "\\u\x7b" ++ Text.hexadecimal c.toNat ++ "\x7d"
      else c.toString

def line (event : Event) : String :=
  event.level.label ++ " " ++ event.target ++ ": "
    ++ String.join (event.message.toList.map messageChar)
    ++ String.join (event.fields.map fun field => " " ++ field.1 ++ "=" ++ field.2.render)

def fieldsValue (event : Event) : Value :=
  .table (("message", .text event.message) :: event.fields.map fun field =>
    (field.1, field.2.toValue))

def entries (event : Event) : List (String × Value) :=
  [("level", .text event.level.label), ("fields", event.fieldsValue),
    ("target", .text event.target)]

def toValue (event : Event) : Value := .table event.entries

/-- The line of a log for an event at some time, as a tree or as text. -/
def stamped (json : Bool) (time : Timestamp) (event : Event) : String :=
  if json then Json.render (.table (("timestamp", .text time.render) :: event.entries))
  else time.render ++ " " ++ event.line

end Event

/-- The event that reports a result: a warning with the message, unless the result is healthy. -/
def ofResult (result : Result) : Event :=
  let head := "HEALTH: " ++ result.name ++ " - " ++ result.status.label ++ " ("
    ++ toString result.millis ++ "ms)"
  { level := if result.status = .healthy then .info else .warn
    target := "vitals_registry::logging"
    message := if result.status = .healthy then head else head ++ " " ++ result.message.getD ""
    fields :=
      [("probe", .plain result.name), ("status", .plain result.status.label),
        ("duration_ms", .number result.millis)] }

end Vitals.Logging
