import Vitals.Decimal.Reading
import Vitals.Environment
import Vitals.Probes.Resource
import Vitals.Text.Reader

/-!
# Readings of a host

What a host says about itself in the text files of its kernel: its memory, its load, how long it
has been up, its release, and the variables of a process.
-/

namespace Vitals.Readings

def words (line : String) : List String :=
  ((line.replace "\t" " ").splitOn " ").filter (· ≠ "")

/-- The number of bytes in the line of a name; the line counts in units of 1024. -/
def kibibytes? (text name : String) : Option Nat :=
  (text.splitOn "\n").findSome? fun line =>
    match words line with
    | key :: number :: _ => if key = name ++ ":" then number.toNat?.map (· * 1024) else none
    | _ => none

/-- The memory of the host; what is not available is used. -/
def memory? (text : String) : Option Usage := do
  let total ← kibibytes? text "MemTotal"
  return ⟨total - (← kibibytes? text "MemAvailable"), total⟩

/-- The number that a decimal fraction writes. -/
def fraction? (text : String) : Option Float := do
  match text.splitOn "." with
  | [whole, part] =>
      return Decimal.nearest (← (whole ++ part).toNat?) (-part.length)
  | _ => none

/-- The three loads of the host. -/
def loads? (text : String) : Option (Float × Float × Float) := do
  match words text with
  | one :: five :: fifteen :: _ =>
      return (← fraction? one, ← fraction? five, ← fraction? fifteen)
  | _ => none

/-- The whole seconds that the host has been up. -/
def uptime? (text : String) : Option Nat :=
  ((text.splitOn ".").headD "").toNat?

/-- How many processors the host has, at least one. -/
def processorCount (text : String) : Nat :=
  max 1 ((text.splitOn "\n").countP fun line => (words line).head? == some "processor")

/-- The architecture of the host: only the description of an ARM processor names its architecture
by a number. -/
def architecture (text : String) : String :=
  if (text.splitOn "CPU architecture").length = 1 then "x86_64" else "aarch64"

/-- The value of a name in a list of settings, without quotes. -/
def setting? (text name : String) : Option String :=
  (text.splitOn "\n").findSome? fun line =>
    match line.splitOn "=" with
    | [key, value] => if key = name then some (value.replace "\"" "") else none
    | _ => none

/-- The release of the host: its kernel, with the distribution if it has a name. -/
def release (text : String) : String :=
  match setting? text "NAME", setting? text "VERSION_ID" with
  | name, some version => "Linux (" ++ name.getD "unknown" ++ " " ++ version ++ ")"
  | some name, none => "Linux (" ++ name ++ ")"
  | none, none => "Linux"

/-- The variable that bytes write: a name, an equals sign and a value. -/
def binding? (bytes : List UInt8) : Option (String × ByteArray) := do
  let name := bytes.takeWhile (· != 0x3D)
  match bytes.drop name.length with
  | _ :: value => return (← String.fromUTF8? ⟨name.toArray⟩, ⟨value.toArray⟩)
  | [] => none

/-- The variables of a process; each is followed by a zero. -/
def bindings (block : ByteArray) : List (String × ByteArray) :=
  (split block.toList []).filterMap binding?
where
  split : List UInt8 → List UInt8 → List (List UInt8)
    | [], last => if last.isEmpty then [] else [last.reverse]
    | byte :: rest, last =>
        if byte = 0 then last.reverse :: split rest [] else split rest (byte :: last)

end Vitals.Readings
