/-!
# Substitution of variables

A text refers to a variable by its name between `${` and `}`. The references of a text are found
from left to right, and none of them overlaps another. `substitute` replaces them in that order;
the first one whose variable has no value is reported.
-/

namespace Vitals.Config

/-- A letter or an underscore, with which a name starts. -/
def startsName (c : Char) : Bool := c.isAlpha || c == '_'

/-- A letter, a digit or an underscore. -/
def continuesName (c : Char) : Bool := c.isAlphanum || c == '_'

/-- The name of a reference at the front of a text, and what follows the reference. -/
def reference? : List Char → Option (List Char × List Char)
  | '$' :: '{' :: rest =>
      let name := rest.takeWhile continuesName
      match rest.dropWhile continuesName with
      | '}' :: after => if name.head?.any startsName then some (name, after) else none
      | _ => none
  | _ => none

/-- What follows a reference is shorter than the text. -/
theorem length_lt_of_reference? {text name after : List Char}
    (found : reference? text = some (name, after)) : after.length < text.length := by
  unfold reference? at found
  split at found
  · rename_i rest
    simp only at found
    split at found
    · rename_i tail dropped
      split at found
      · simp only [Option.some.injEq, Prod.mk.injEq] at found
        have shorter : (rest.dropWhile continuesName).length ≤ rest.length :=
          (List.dropWhile_sublist continuesName).length_le
        rw [dropped, found.2] at shorter
        simp only [List.length_cons] at shorter ⊢
        omega
      · simp at found
    · simp at found
  · simp at found

/-- A part of a text: a reference, or a character that belongs to none. -/
inductive Segment where
  | char (c : Char)
  | reference (name : List Char)
  deriving DecidableEq, Repr

/-- The parts of a text, from left to right. -/
def segments (text : List Char) : List Segment :=
  match text with
  | [] => []
  | c :: rest =>
      match _found : reference? (c :: rest) with
      | some (name, after) => .reference name :: segments after
      | none => .char c :: segments rest
termination_by text.length
decreasing_by
  · exact length_lt_of_reference? _found
  · simp

def Segment.name? : Segment → Option String
  | .char _ => none
  | .reference name => some (String.ofList name)

/-- The names that a text refers to, from left to right. -/
def references (text : String) : List String :=
  (segments text.toList).filterMap Segment.name?

/-- The text of a reference. -/
def writeReference (name : String) : List Char :=
  '$' :: '{' :: name.toList ++ ['}']

/-- A text behind some characters to be skipped, with every occurrence of a pattern replaced; the
occurrences are found from left to right. -/
def replaceFrom (pattern replacement : List Char) : Nat → List Char → List Char
  | _, [] => []
  | skipped + 1, _ :: rest => replaceFrom pattern replacement skipped rest
  | 0, c :: rest =>
      if pattern.isPrefixOf (c :: rest) then
        replacement ++ replaceFrom pattern replacement (pattern.length - 1) rest
      else c :: replaceFrom pattern replacement 0 rest

/-- A text with every occurrence of a pattern replaced. -/
def replaceAll (pattern replacement text : List Char) : List Char :=
  replaceFrom pattern replacement 0 text

/-- A text with the references to some names replaced by values, one name after the other; or the
first name without a value. -/
def substituteNames (value? : String → Option String) :
    List String → List Char → Except String (List Char)
  | [], text => .ok text
  | name :: rest, text =>
      match value? name with
      | none => .error name
      | some value =>
          substituteNames value? rest (replaceAll (writeReference name) value.toList text)

/-- A text with its references replaced by the values of their variables, or the name of the first
variable without a value. -/
def substitute (value? : String → Option String) (text : String) : Except String String :=
  (substituteNames value? (references text) text.toList).map String.ofList

end Vitals.Config
