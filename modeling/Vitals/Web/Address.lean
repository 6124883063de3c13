import Vitals.Config.Basic
import Vitals.Text.Quoted
import Vitals.Text.Reader

/-!
# Addresses to listen on

An address is a host and a port. The host is an IPv4 address of four decimal numbers, or an IPv6
address between brackets with an optional number for its scope; names are no hosts.
-/

namespace Vitals.Web

open Text

/-- A host: four octets, or eight groups of 16 bits with a scope. -/
inductive Host where
  | v4 (octets : List Nat)
  | v6 (groups : List Nat) (scope : Nat)
  deriving DecidableEq, Repr

namespace Host

/-- A number of at most three digits up to 255, without leading zeros. -/
def octet : Reader Nat := do
  let digits ← Reader.takeWhile1 isDigit
  if 3 < digits.length ∨ (digits.head? = some '0' ∧ 1 < digits.length) then failure
  if 255 < ofDigits digits then failure
  return ofDigits digits

/-- Four octets with points between them. -/
def octets : Reader (List Nat) := do
  let first ← octet
  let others ← (List.replicate 3 ()).mapM fun _ => do
    Reader.char '.'
    octet
  return first :: others

/-- A group of one to four hexadecimal digits. -/
def group : Reader Nat := do
  let digits ← Reader.takeWhile1 fun c => (hexValue? c).isSome
  match ofHexDigits? digits with
  | some number => if 4 < digits.length then failure else return number
  | none => failure

/-- A part of an address behind a colon, unless it is the first part. -/
def afterColon {α : Type} (isFirst : Bool) (part : Reader α) : Reader α := do
  unless isFirst do Reader.char ':'
  part

/-- As many groups in a row as there are, at most `room` of them; where two have room, an IPv4
address may stand for the last two. Whether one does is told too. -/
def groups (isFirst : Bool) : Nat → Reader (List Nat × Bool)
  | 0 => return ([], false)
  | room + 1 => do
      let chars ← get
      let embedded := if room = 0 then none else afterColon isFirst octets chars
      match embedded, afterColon isFirst group chars with
      | some ([a, b, c, d], rest), _ =>
          set rest
          return ([a * 256 + b, c * 256 + d], true)
      | _, some (number, rest) => do
          set rest
          let (others, endsInOctets) ← groups false room
          return (number :: others, endsInOctets)
      | _, none => return ([], false)

/-- The eight groups of an IPv6 address; two colons stand for at least one group of zero. -/
def allGroups : Reader (List Nat) := do
  let (front, endsInOctets) ← groups true 8
  if front.length = 8 then return front
  if endsInOctets then failure
  Reader.text "::"
  let (back, _) ← groups true (7 - front.length)
  return front ++ List.replicate (8 - front.length - back.length) 0 ++ back

/-- The number of a scope behind a percent sign, 0 if there is none. -/
def scope : Reader Nat := do
  if ← Reader.optionalChar '%' then
    let number := ofDigits (← Reader.takeWhile1 isDigit)
    if number < UInt32.size then return number else failure
  else return 0

def reader : Reader Host := do
  if ← Reader.optionalChar '[' then
    let groups ← allGroups
    let scope ← scope
    Reader.char ']'
    return .v6 groups scope
  else return .v4 (← octets)

def read? (text : String) : Option Host := reader.all? text.toList

/-- The length of the run of zeros that starts at each position. -/
def zeroRuns : List Nat → List Nat
  | [] => []
  | number :: rest =>
      let runs := zeroRuns rest
      (if number = 0 then runs.headD 0 + 1 else 0) :: runs

def joinGroups (groups : List Nat) : String := ":".intercalate (groups.map hexadecimal)

/-- An IPv6 address in its short form: the first of its longest runs of zeros is left out, if it
has two of them or more. -/
def compressGroups (groups : List Nat) : String :=
  let runs := zeroRuns groups
  let longest := runs.foldl max 0
  if longest < 2 then joinGroups groups
  else
    let start := runs.idxOf longest
    joinGroups (groups.take start) ++ "::" ++ joinGroups (groups.drop (start + longest))

/-- An IPv6 address in its short form; one that maps an IPv4 address ends in that address. -/
def renderGroups (groups : List Nat) : String :=
  match groups with
  | [0, 0, 0, 0, 0, 65535, high, low] =>
      "::ffff:" ++ ".".intercalate
        ([high / 256, high % 256, low / 256, low % 256].map toString)
  | groups => compressGroups groups

/-- The text of a host as it stands in an address. -/
def render : Host → String
  | .v4 octets => ".".intercalate (octets.map toString)
  | .v6 groups scope =>
      let mark := if scope = 0 then "" else "%" ++ toString scope
      "[" ++ renderGroups groups ++ mark ++ "]"

end Host

structure Address where
  host : Host
  port : Nat
  deriving DecidableEq, Repr

namespace Address

def reader : Reader Address := do
  let host ← Host.reader
  Reader.char ':'
  let port := ofDigits (← Reader.takeWhile1 isDigit)
  if port < UInt16.size then return ⟨host, port⟩ else failure

def read? (text : String) : Option Address := reader.all? text.toList

def render (address : Address) : String :=
  address.host.render ++ ":" ++ toString address.port

end Address

end Vitals.Web

namespace Vitals.Config.Web

def addressText (web : Web) : String :=
  web.bindAddress ++ ":" ++ toString web.port.toNat

def address (web : Web) : Except String Vitals.Web.Address :=
  match Vitals.Web.Address.read? web.addressText with
  | some address => .ok address
  | none => .error ("无效的监听地址 " ++ web.addressText ++ ": invalid socket address syntax")

end Vitals.Config.Web
