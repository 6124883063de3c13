import Vitals.Data.Record
import Vitals.Status

/-!
# Check results

The outcome of one check: its verdict, who reports it, what it has to say, how long it took, when
it was taken, and details. `Result.toValue` and `Result.ofValue?` are the tree that is published
and the way back; a duration is published in whole milliseconds.
-/

namespace Vitals

/-- The outcome of one check. -/
structure Result where
  status : Status
  name : String
  message : Option String
  duration : Duration
  timestamp : Timestamp
  details : Option Entries
  deriving Inhabited

namespace Result

/-- A result that took no time and has nothing more to say. -/
def plain (name : String) (status : Status) : Result :=
  ⟨status, name, none, .zero, .epoch, none⟩

def healthy (name : String) : Result := plain name .healthy

def degraded (name message : String) : Result :=
  { plain name .degraded with message := some message }

def unhealthy (name message : String) : Result :=
  { plain name .unhealthy with message := some message }

def withDetail (result : Result) (key : String) (value : Value) : Result :=
  { result with details := some (Named.insert key value (result.details.getD [])) }

/-- The whole milliseconds the check took. -/
def millis (result : Result) : Nat := result.duration.millis

/-- The line that reports the result: sign, name, verdict, time, and the message if there is
one. -/
def line (result : Result) : String :=
  let head := result.status.sign ++ " " ++ result.name ++ " - " ++ result.status.label ++ " - "
    ++ toString result.millis ++ "ms"
  match result.message with
  | some message => head ++ " - " ++ message
  | none => head

end Result

namespace Status

def toValue (status : Status) : Value := .text status.label

/-- The verdict of a tree: its name, or a table whose only key is its name, with no value. -/
def ofValue? : Value → Option Status
  | .text label => ofLabel? label
  | .table [(label, .null)] => ofLabel? label
  | _ => none

@[simp]
theorem ofValue?_toValue (status : Status) : ofValue? status.toValue = some status :=
  ofLabel?_label status

end Status

/-- The entry of a field that is left out when it is absent. -/
def Value.entry? (name : String) : Option Value → List (String × Value)
  | some value => [(name, value)]
  | none => []

/-- Free data: a table whose parts all denote values. -/
def Entries.ofValue? : Value → Option Entries
  | .table entries =>
      if Value.entriesReadable entries then
        some (Named.ofList (Value.entriesWithoutRepeats entries))
      else none
  | _ => none

namespace Result

def fieldNames : List String := ["status", "name", "message", "duration", "timestamp", "details"]

def toValue (result : Result) : Value :=
  .table <|
    [("status", result.status.toValue), ("name", .text result.name)]
      ++ Value.entry? "message" (result.message.map .text)
      ++ [("duration", .ofNat result.millis), ("timestamp", .text result.timestamp.render)]
      ++ Value.entry? "details" (result.details.map .table)

def ofValue? (value : Value) : Option Result := do
  let record ← Record.ofValue? .refused fieldNames value
  let status ← record.require "status" Status.ofValue?
  let name ← record.require "name" Value.toText?
  let message ← record.optional "message" Value.toText?
  let duration ← record.require "duration" Value.toDuration?
  let timestamp ← record.require "timestamp" Value.toTimestamp?
  let details ← record.optional "details" Entries.ofValue?
  return ⟨status, name, message, duration, timestamp, details⟩

end Result

end Vitals
