import Vitals.Data.Named

/-!
# Trees of data

The data that documents hold, whatever they are written in. A table keeps its entries in the
order of the document, a repeated key included, because records refuse a repeated field and free
data keeps the last entry of a key.

A text can be well formed and still denote no value: a number beyond the largest float, half of a
surrogate pair, nesting beyond the limit of its format. Such a part is `unreadable`; it does no
harm where nobody reads it.
-/

namespace Vitals

/-- A tree of data. -/
inductive Value where
  | null
  | bool (flag : Bool)
  | int (number : Int)
  | float (number : Float)
  | text (content : String)
  | list (items : List Value)
  | table (entries : List (String × Value))
  | unreadable
  deriving Inhabited

namespace Value

/-- The value of a number of 64 bits without sign. -/
def ofNat (number : Nat) : Value := .int number

mutual

/-- Whether every part of a tree denotes a value, and every whole number fits 64 bits with or
without a sign. -/
def isReadable : Value → Bool
  | .unreadable => false
  | .int number => -Int.ofNat (UInt64.size / 2) ≤ number && number < Int.ofNat UInt64.size
  | .list items => areReadable items
  | .table entries => entriesReadable entries
  | _ => true

/-- Whether all trees of a list are readable. -/
def areReadable : List Value → Bool
  | [] => true
  | item :: rest => item.isReadable && areReadable rest

/-- Whether the trees of all entries are readable. -/
def entriesReadable : List (String × Value) → Bool
  | [] => true
  | (_, value) :: rest => value.isReadable && entriesReadable rest

end

mutual

/-- The tree with one entry for each key of its tables, the last one. -/
def withoutRepeats : Value → Value
  | .list items => .list (itemsWithoutRepeats items)
  | .table entries => .table (entriesWithoutRepeats entries)
  | value => value

/-- The trees of a list without repeated keys. -/
def itemsWithoutRepeats : List Value → List Value
  | [] => []
  | item :: rest => item.withoutRepeats :: itemsWithoutRepeats rest

/-- The last entry of each key. -/
def entriesWithoutRepeats : List (String × Value) → List (String × Value)
  | [] => []
  | (key, value) :: rest =>
      if rest.any (·.1 == key) then entriesWithoutRepeats rest
      else (key, value.withoutRepeats) :: entriesWithoutRepeats rest

end

/-- The entry of a key in a table, the first one. -/
def get? (key : String) : Value → Option Value
  | .table entries => entries.lookup key
  | _ => none

end Value

/-- A map from names to trees. -/
abbrev Entries := Named Value

end Vitals
