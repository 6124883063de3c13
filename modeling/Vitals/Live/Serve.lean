import Std.Async.Signal
import Vitals.Live.Desk
import Vitals.Web.Wire

/-!
# Services at work

A service waits for the first of three things: a guest, the next tick of a timer, or a signal. One
guest is answered after the other. Before probes are executed it is found out how they go; so each
execution is settled when the registry starts it.
-/

namespace Vitals.Live

open CommandLine Std.Async

/-- What a service waits for. -/
inductive Happening where
  | guest (peer : TCP.Socket.Client)
  | tick
  | signal (signal : CommandLine.Signal)

/-- A source that has something as soon as a task has ended. -/
def ended {α : Type} (task : AsyncTask α) : Selector Unit where
  tryFn := do return if ← IO.hasFinished task then some () else none
  registerFn waiter := do
    discard <| task.mapIO fun _ => waiter.race (pure ()) fun promise => promise.resolve (.ok ())
  unregisterFn := pure ()

/-- Waits for a signal of the host: the watch that is kept, and the task that ends with it. -/
structure Watch where
  waiter : Std.Async.Signal.Waiter
  task : AsyncTask Int

def Watch.start (signal : Std.Async.Signal) : IO Watch := do
  let waiter ← Std.Async.Signal.Waiter.mk signal false
  return ⟨waiter, ← waiter.wait⟩

/-- A service at work. -/
structure Post where
  desk : Desk
  environment : Environment
  startedAt : Nat
  config : Config
  server : TCP.Socket.Server
  interrupt : Watch
  terminate : Watch

namespace Post

/-- Carries out a part of the run. -/
def perform {α : Type} (post : Post) (part : Program α) : IO α := do
  let around ← surroundings post.environment post.startedAt [] (.error "")
  match ← Live.perform post.desk around part with
  | .ok value => return value
  | .error error => throw (.userError error.message)

/-- Finds out how some probes go. -/
def prepare (post : Post) (names : List String) (service : Service) : Async Service := do
  let probes := post.config.probes.filter fun probe => names.contains probe.name
  let world : World := ⟨.ofRecord (← observeAll post.config probes), ← host⟩
  let behaviours := probes.filterMap fun probe =>
    (probe.behaviour world).toOption.map fun behaviour => (probe.name, behaviour)
  return { service with registry := service.registry.foresee behaviours }

/-- The milliseconds until the next tick, a minute at most. -/
def pause (service : Service) (now : Nat) : Nat :=
  (service.registry.scheduler.timers.map fun timer => timer.due - now).foldl min 60000

def next (post : Post) (service : Service) : Async Happening := do
  let rest ← Selector.sleep (.ofNat (max 1 (pause service (← clock))))
  Selectable.one #[
    .case post.server.acceptSelector fun peer => pure (.guest peer),
    .case (ended post.interrupt.task) fun _ => pure (.signal .interrupt),
    .case (ended post.terminate.task) fun _ => pure (.signal .terminate),
    .case rest fun _ => pure .tick]

/-- Lets the timers that are due execute their probes. -/
def tick (post : Post) (service : Service) : Async Service := do
  let now ← clock
  let due := service.registry.scheduler.timers.filter (·.due ≤ now)
  let service ← post.prepare (due.map Timer.name) service
  post.perform (service.wait (← clock))

/-- The probes that are executed to answer a request. -/
def concerned (service : Service) (request : Web.Request) : List String :=
  match Web.Plan.ofRoute service.registry (.ofRequest service.exposeCached request) with
  | .respond _ => []
  | .inquire _ _ => service.registry.names

/-- Receives a request and answers it. A guest that does not finish a request within two seconds
is left without an answer. -/
def attend (post : Post) (peer : TCP.Socket.Client) (service : Service) : Async Service := do
  let received ← Async.race (receive peer .empty Web.Request.ofText?) do
    sleep 2000
    return none
  match received with
  | none => return service
  | some request =>
      let service ← post.perform (service.wait (← clock))
      let service ← post.prepare (concerned service request) service
      let (service, response) ← post.perform (service.answer request)
      try
        peer.send response.render.toUTF8
        peer.shutdown
      catch _ => pure ()
      return service

/-- Serves until a signal comes. -/
partial def stay (post : Post) (service : Service) : Async Unit := do
  match ← post.next service with
  | .tick => post.stay (← post.tick service)
  | .guest peer =>
      let later ← try post.attend peer service catch _ => pure service
      post.stay later
  | .signal signal => post.perform (service.stop signal)

end Post

/-- Listens on the address of a configuration, and tells which one it is in the end. -/
def listenOn (server : TCP.Socket.Server) (web : Config.Web) :
    IO (Except String Web.Address) := do
  match web.address with
  | .error reason => return .error reason
  | .ok address =>
      try
        server.bind (socketAddress address.host address.port.toUInt16)
        server.listen 1024
        return .ok { address with port := (portOf (← server.getSockName)).toNat }
      catch error => return .error (toString error)

/-- Starts a service and serves. -/
def serve (desk : Desk) (environment : Environment) (startedAt : Nat) (config : Config)
    (arguments : Arguments) (bind : Option String) (port : Option UInt16) :
    IO (Except Error Nat) := do
  let server ← TCP.Socket.Server.mk
  let listening ← listenOn server (Service.webSection config.web bind port)
  let around ← surroundings environment startedAt [] listening
  match ← perform desk around (Service.start arguments bind port) with
  | .error error => return .error error
  | .ok service =>
      let interrupt ← Watch.start .sigint
      let terminate ← Watch.start .sigterm
      let post : Post := ⟨desk, environment, startedAt, config, server, interrupt, terminate⟩
      (post.stay service).block
      interrupt.waiter.stop
      terminate.waiter.stop
      return .ok 0

end Vitals.Live
