import Vitals.Data.Value

/-!
# The tree of a TOML document

A document fills its tree statement by statement, and a table may be spread over many statements.
Each table remembers how it came to be, because that decides who may still add to it: a header may
complete a table that so far was only part of a path of headers, a dotted key may add to tables
that dotted keys made, and nobody adds to a value.
-/

namespace Vitals.Toml

/-- How a table came to be. -/
inductive Origin where
  /-- A header of its own; the root has this origin too. -/
  | header
  | path
  /-- A part of a dotted key. -/
  | dotted
  deriving DecidableEq, Repr

/-- A part of the tree. -/
inductive Node where
  /-- A value, complete as it is; inline tables and lists are such values. -/
  | value (value : Value)
  | table (origin : Origin) (entries : List (String × Node))
  /-- The tables of a repeated header, the last one first. -/
  | tables (last : List (String × Node)) (earlier : List (List (String × Node)))

/-- The entries of a table. -/
abbrev Body := List (String × Node)

namespace Body

/-- The entries with the one of a key changed or added. -/
def update? (key : String) (change : Option Node → Option Node) : Body → Option Body
  | [] => (change none).map fun node => [(key, node)]
  | (name, node) :: rest =>
      if name = key then (change (some node)).map fun node => (name, node) :: rest
      else (update? key change rest).map ((name, node) :: ·)

/-- The entries with a change made to the table at the end of a path, made up of tables that are
there and of new ones. A path of dotted keys does not lead through tables with headers of their
own, and no path leads through a value. -/
def alter? (created : Origin) (change : Origin → Body → Option Body) :
    List String → Origin → Body → Option Body
  | [], origin, body => change origin body
  | key :: path, _, body =>
      body.update? key fun
        | none => (alter? created change path created []).map (.table created)
        | some (.table origin inner) =>
            if created = .dotted ∧ origin = .header then none
            else (alter? created change path origin inner).map (.table origin)
        | some (.tables last earlier) =>
            (alter? created change path .header last).map fun last => .tables last earlier
        | some (.value _) => none

/-- The entries with a value at a dotted key. The last table on the way must be made of dotted
keys, and the key must be new. -/
def define? (path : List String) (key : String) (value : Value) (body : Body) : Option Body :=
  alter? .dotted
    (fun origin inner =>
      if path ≠ [] ∧ origin ≠ .dotted then none
      else inner.update? key fun
        | none => some (.value value)
        | some _ => none)
    path .header body

/-- The entries with the table of a header: a new one, or one that was part of a path only. -/
def openTable? (path : List String) (key : String) (body : Body) : Option Body :=
  alter? .path
    (fun _ inner => inner.update? key fun
      | none => some (.table .header [])
      | some (.table .path entries) => some (.table .header entries)
      | some _ => none)
    path .header body

/-- The entries with one more table of a repeated header. -/
def openElement? (path : List String) (key : String) (body : Body) : Option Body :=
  alter? .path
    (fun _ inner => inner.update? key fun
      | none => some (.tables [] [])
      | some (.tables last earlier) => some (.tables [] (last :: earlier))
      | some _ => none)
    path .header body

/-- The entries with a value at a dotted key of the table at the end of a path of headers. -/
def defineUnder? (header path : List String) (key : String) (value : Value) (body : Body) :
    Option Body :=
  alter? .path (fun _ inner => inner.define? path key value) header .header body

end Body

mutual

def Node.toValue : Node → Value
  | .value value => value
  | .table _ entries => .table (entryValues entries)
  | .tables last earlier => .list (bodyValues earlier [.table (entryValues last)])

/-- The values of the entries of a table. -/
def entryValues : List (String × Node) → List (String × Value)
  | [] => []
  | (key, node) :: rest => (key, node.toValue) :: entryValues rest

/-- The values of tables, the last one first, in front of others. -/
def bodyValues : List (List (String × Node)) → List Value → List Value
  | [], others => others
  | body :: earlier, others => bodyValues earlier (.table (entryValues body) :: others)

end

def Body.toValue (body : Body) : Value := .table (entryValues body)

end Vitals.Toml
