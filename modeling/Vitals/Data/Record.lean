import Vitals.Data.Value
import Vitals.Time.Duration
import Vitals.Time.Timestamp

/-!
# Records in trees of data

A record is a table whose keys name its fields, or a list that holds its fields in their order.
In a table unknown keys are ignored and a known key must not come twice; in a list fields may
only be left out at the end. What a missing field means is said field by field: it is refused,
it takes a default, or it is absent.
-/

namespace Vitals

namespace Value

def toBool? : Value → Option Bool
  | .bool flag => some flag
  | _ => none

/-- A whole number from 0 and below a bound. -/
def toNat? (bound : Nat) : Value → Option Nat
  | .int number => if 0 ≤ number ∧ number < bound then some number.toNat else none
  | _ => none

/-- A whole number of 64 bits without sign. -/
def toNat64? : Value → Option Nat := toNat? UInt64.size

/-- A number; a whole one is rounded to a float. -/
def toFloat? : Value → Option Float
  | .float number => some number
  | .int number => some (Float.ofInt number)
  | _ => none

def toText? : Value → Option String
  | .text content => some content
  | _ => none

/-- The items of a list, each read. -/
def toList? {α : Type} (item? : Value → Option α) : Value → Option (List α)
  | .list items => items.mapM item?
  | _ => none

/-- The entries of a table, each read; the last entry of a key counts. -/
def toEntries? {α : Type} (value? : Value → Option α) : Value → Option (List (String × α))
  | .table entries =>
      entries.mapM fun entry => (value? entry.2).map fun value => (entry.1, value)
  | _ => none

/-- A number of whole milliseconds. -/
def toDuration? (value : Value) : Option Duration :=
  value.toNat64?.map Duration.ofMillis

def toTimestamp? (value : Value) : Option Timestamp :=
  value.toText?.bind Timestamp.read?

end Value

/-- The fields of a record that a tree holds. -/
structure Record where
  /-- The fields came as a list. -/
  positional : Bool
  fields : List (String × Value)

namespace Record

/-- Whether a tree holds more than the fields of a record where it may not. -/
inductive Surplus where
  | refused
  | ignored
  deriving DecidableEq

/-- The fields of a table; none of the names comes twice. -/
def ofEntries? (names : List String) (entries : List (String × Value)) : Option Record :=
  let known := entries.filter fun entry => names.contains entry.1
  if (known.map Prod.fst).Nodup then some ⟨false, known⟩ else none

/-- The fields of a list, in the order of the names. -/
def ofItems? (surplus : Surplus) (names : List String) (items : List Value) : Option Record :=
  if names.length < items.length ∧ surplus = .refused then none
  else some ⟨true, names.zip items⟩

def ofValue? (surplus : Surplus) (names : List String) : Value → Option Record
  | .table entries => ofEntries? names entries
  | .list items => ofItems? surplus names items
  | _ => none

variable {α : Type}

def require (record : Record) (name : String) (read? : Value → Option α) : Option α :=
  (record.fields.lookup name).bind read?

/-- A field that takes a default when it is missing. -/
def orElse (record : Record) (name : String) (fallback : α) (read? : Value → Option α) : Option α :=
  match record.fields.lookup name with
  | some value => read? value
  | none => some fallback

/-- A field that is absent when it is missing or null. -/
def optional (record : Record) (name : String) (read? : Value → Option α) : Option (Option α) :=
  match record.fields.lookup name with
  | some .null | none => some none
  | some value => (read? value).map some

/-- A field that is absent when it is null or missing in a table; a list must hold it. -/
def nullable (record : Record) (name : String) (read? : Value → Option α) : Option (Option α) :=
  match record.fields.lookup name with
  | some .null => some none
  | some value => (read? value).map some
  | none => if record.positional then none else some none

end Record

end Vitals
