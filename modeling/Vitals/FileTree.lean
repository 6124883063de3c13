import Vitals.Probes.Mount

/-!
# File trees

The files and directories that a program sees from its working directory. A path is walked part by
part: an empty part and a single point stay where they are, two points go up, and each needs to
start in a directory.
-/

namespace Vitals

/-- Why a file cannot be used. -/
inductive FileError where
  | notFound
  | isDirectory
  | notDirectory
  deriving DecidableEq, Repr

def FileError.message : FileError → String
  | .notFound => "No such file or directory (os error 2)"
  | .isDirectory => "Is a directory (os error 21)"
  | .notDirectory => "Not a directory (os error 20)"

/-- The place of a file or directory: the names on the way to it from the working directory. A way
from the root starts with a slash, a way out of the working directory with two points. -/
abbrev Place := List String

/-- What stands at a place. -/
inductive FileEntry where
  | directory
  | file (content : ByteArray)

/-- The files and directories below a working directory. -/
structure FileTree where
  /-- Every directory but the working directory and the root is listed. -/
  entries : List (Place × FileEntry)

namespace FileTree

def empty : FileTree := ⟨[]⟩

instance : Inhabited FileTree := ⟨empty⟩

/-- The directories that lead to a place, the outermost first. -/
def ancestors : Place → List Place
  | [] | [_] => []
  | name :: rest => [name] :: (ancestors rest).map (name :: ·)

def parts (path : String) : List String :=
  (Mount.splitAtSlashes path.toList).map String.ofList

/-- The place that a directory has for its parent. -/
def parent (place : Place) : Place :=
  match place.reverse with
  | [] => [".."]
  | last :: earlier =>
      if last = ".." then place ++ [".."]
      else if place = ["/"] then place
      else earlier.reverse

/-- The place that a path names where every directory on the way is there. -/
def placeOf (path : String) : Place :=
  (parts path).foldl
    (fun place part =>
      if part = "" ∨ part = "." then place
      else if part = ".." then parent place
      else place ++ [part])
    (if path.toList.head? = some '/' then ["/"] else [])

/-- The tree of a list of files and directories; the directories on the way to them exist too. -/
def ofList (listed : List (String × FileEntry)) : FileTree :=
  ⟨listed.flatMap fun entry =>
    let place := placeOf entry.1
    (place, entry.2) :: (ancestors place).map fun directory => (directory, .directory)⟩

def entry? (tree : FileTree) (place : Place) : Option FileEntry :=
  if place = [] ∨ place = ["/"] ∨ place.all (· == "..") then some .directory
  else tree.entries.lookup place

/-- The place to which the parts of a path lead from a place. -/
def walk (tree : FileTree) (place : Place) : List String → Except FileError Place
  | [] => .ok place
  | part :: rest =>
      match tree.entry? place with
      | none => .error .notFound
      | some (.file _) => .error .notDirectory
      | some .directory =>
          if part = "" ∨ part = "." then tree.walk place rest
          else if part = ".." then tree.walk (parent place) rest
          else tree.walk (place ++ [part]) rest

def locate (tree : FileTree) (path : String) : Except FileError Place :=
  match path.toList with
  | [] => .error .notFound
  | '/' :: _ => tree.walk ["/"] (parts path)
  | _ => tree.walk [] (parts path)

/-- What stands at the place that a path names. -/
def find (tree : FileTree) (path : String) : Except FileError FileEntry := do
  match tree.entry? (← tree.locate path) with
  | some entry => return entry
  | none => throw .notFound

/-- There is a file or a directory at a path. -/
def has (tree : FileTree) (path : String) : Bool :=
  match tree.find path with
  | .ok _ => true
  | .error _ => false

def read (tree : FileTree) (path : String) : Except FileError ByteArray := do
  match ← tree.find path with
  | .file content => return content
  | .directory => throw .isDirectory

/-- The tree with an empty file at a path, whose directory must exist, in the place of a file that
was there. -/
def create (tree : FileTree) (path : String) : Except FileError FileTree := do
  let place ← tree.locate path
  match tree.entry? place with
  | some .directory => throw .isDirectory
  | some (.file _) =>
      return ⟨tree.entries.map fun entry =>
        if entry.1 = place then (place, .file .empty) else entry⟩
  | none =>
      match tree.entry? (parent place) with
      | some .directory => return ⟨(place, .file .empty) :: tree.entries⟩
      | some (.file _) => throw .notDirectory
      | none => throw .notFound

end FileTree

end Vitals
