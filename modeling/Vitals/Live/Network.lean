import Std.Async.DNS
import Std.Async.TCP
import Std.Async.Timer
import Vitals.Http.Wire
import Vitals.Live.Host
import Vitals.Probes.Http
import Vitals.Web.Address

/-!
# The network at work

Sends the requests of a check over connections and records the replies. Connections are not
encrypted: a server that asks for it counts as one that accepts no connection.
-/

namespace Vitals.Live

open Std.Async Std.Net

def socketAddress (host : Web.Host) (port : UInt16) : SocketAddress :=
  match host with
  | .v4 octets =>
      let octet (place : Nat) : UInt8 := (octets.getD place 0).toUInt8
      .v4 ⟨.ofParts (octet 0) (octet 1) (octet 2) (octet 3), port⟩
  | .v6 groups _ =>
      let group (place : Nat) : UInt16 := (groups.getD place 0).toUInt16
      .v6 ⟨.ofParts (group 0) (group 1) (group 2) (group 3) (group 4) (group 5) (group 6)
        (group 7), port⟩

def portOf : SocketAddress → UInt16
  | .v4 address => address.port
  | .v6 address => address.port

def withPort (address : IPAddr) (port : UInt16) : SocketAddress :=
  match address with
  | .v4 address => .v4 ⟨address, port⟩
  | .v6 address => .v6 ⟨address, port⟩

/-- Receives until what has come answers a question, or nothing more comes. Each byte counts as a
character, because heads are written in ASCII and bodies do not matter. -/
partial def receive {α : Type} (peer : TCP.Socket.Client) (soFar : ByteArray)
    (answer? : String → Option α) : Async (Option α) := do
  let text := String.ofList (soFar.toList.map fun byte => Char.ofNat byte.toNat)
  match answer? text with
  | some answer => return some answer
  | none =>
      match ← peer.recv? 65536 with
      | some bytes => receive peer (soFar ++ bytes) answer?
      | none => return none

/-- The response in a text, once it is there or it is clear that there will be none. -/
def arrival? (text : String) : Option (Option Http.Response) :=
  match Http.Arrival.ofText text 8 with
  | .incomplete => none
  | .malformed => some none
  | .complete response => some (some response)

/-- Connects to the server of a URL. -/
def connect (url : Http.Url) : Async TCP.Socket.Client := do
  let name := ((url.host.getD "").replace "[" "").replace "]" ""
  let port := url.serverPort.toUInt16
  let addresses ← DNS.getAddrInfo name (toString port)
  match addresses[0]? with
  | some address =>
      let peer ← TCP.Socket.Client.mk
      peer.connect (withPort address port)
      return peer
  | none => throw (.userError name)

/-- Sends a request to its server and waits for what becomes of it. -/
def exchange (request : Http.Request) : Async Http.Answer := do
  if request.url.scheme != "http" then return .refused
  let connected : Option TCP.Socket.Client ←
    try some <$> connect request.url
    catch _ => pure none
  match connected with
  | none => return .refused
  | some peer =>
      try
        peer.send request.render.toUTF8
        match ← receive peer .empty arrival? with
        | some (some response) => return .response response
        | _ => return .closed
      catch _ => return .closed

/-- What becomes of a request within some milliseconds. -/
def exchangeWithin (limit : Nat) (request : Http.Request) : Async Http.Answer :=
  Async.race (exchange request) do
    sleep (.ofNat limit)
    return .silent

/-- The requests of an exchange with the replies to them, as far as they are known. -/
abbrev Record := List (List Http.Request × Http.Reply)

/-- Carries out the exchange of a check within some milliseconds: whenever the known replies leave
a request unanswered, it is sent. -/
def observe (check : Config.HttpCheck) (method : String) (limit : Nat) : Async Record := do
  let mut record : Record := []
  let mut left := limit
  for _ in [0:Http.redirectLimit + 1] do
    let exchange := check.exchange (.ofRecord record) method
    match exchange.ending, exchange.requests.getLast? with
    | .never, some request =>
        if (record.lookup exchange.requests).isSome then return record
        let start ← clock
        let answer ← exchangeWithin left request
        let delay := (← clock) - start
        record := record ++ [(exchange.requests, ⟨answer, delay⟩)]
        left := left - delay
    | _, _ => return record
  return record

/-- Carries out the exchanges of probes, all at once, each within its timeout. -/
def observeAll (config : Config) (probes : List Config.Probe) : Async Record := do
  let observed ← Async.concurrentlyAll <| probes.toArray.map fun probe => do
    match probe.kind with
    | .http check =>
        match check.requestMethod? with
        | some method => observe check method (probe.options config.global.defaultTimeout).timeout
        | none => return []
    | _ => return []
  return observed.toList.flatten

end Vitals.Live
