/-!
# Mount points

Which of the mounted file systems holds a path. A mount point holds a path if its components are
the first components of the path; the deepest one that does is wanted, and of mount points spelled
at the same length the last.
-/

namespace Vitals.Mount

/-- The parts between the slashes of a path. -/
def splitAtSlashes : List Char → List (List Char)
  | [] => [[]]
  | '/' :: rest => [] :: splitAtSlashes rest
  | c :: rest =>
      match splitAtSlashes rest with
      | [] => [[c]]
      | part :: parts => (c :: part) :: parts

/-- The components of a path. A slash in front is a component of its own; empty parts do not
count, and neither do single points except one in front. -/
def components (path : String) : List String :=
  match splitAtSlashes path.toList with
  | [] => []
  | first :: parts =>
      let rest := (parts.filter fun part => part ≠ [] ∧ part ≠ ['.']).map String.ofList
      if first ≠ [] then String.ofList first :: rest
      else if parts.isEmpty then []
      else "/" :: rest

def holds (path mount : String) : Bool :=
  (components mount).isPrefixOf (components path)

/-- The longer of two mount points, the second of two equally long ones. -/
def longer (best mount : String) : String :=
  if mount.utf8ByteSize < best.utf8ByteSize then best else mount

/-- The longest mount point that holds a path. -/
def deepest? (path : String) (mounts : List String) : Option String :=
  match mounts.filter (holds path) with
  | [] => none
  | first :: rest => some (rest.foldl longer first)

end Vitals.Mount
