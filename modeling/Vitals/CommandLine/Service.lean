import Vitals.CommandLine.Program
import Vitals.Web.Router

/-!
# Services

A service listens on an address, answers requests out of its registry, and polls its probes in the
meantime, until a signal comes.
-/

namespace Vitals.CommandLine

open Program

/-- What stops a service. -/
inductive Signal where
  | interrupt
  | terminate
  deriving DecidableEq, Repr

/-- A service that listens on an address. -/
structure Service where
  registry : Registry
  address : Web.Address
  exposeCached : Bool

namespace Service

def event (message : String) : Logging.Event :=
  ⟨.info, "vitals_registry::web::server", message, []⟩

/-- An event of the part that carries out commands. -/
def commandEvent (message : String) : Logging.Event :=
  ⟨.info, "vitals_registry::cli::commands", message, []⟩

/-- The section on serving with what the command line says about it. -/
def webSection (web : Config.Web) (bind : Option String) (port : Option UInt16) : Config.Web :=
  { web with bindAddress := bind.getD web.bindAddress, port := port.getD web.port }

def listen (surroundings : Surroundings) (web : Config.Web) : Except Error Web.Address := do
  let address ← web.address.mapError fun reason => .config (.invalid reason)
  (surroundings.listen address).mapError .io

def start (arguments : Arguments) (bind : Option String) (port : Option UInt16) :
    Program Service := do
  let config ← configuration arguments
  setUpJournal arguments (some config.global)
  let web := webSection config.web bind port
  let (registry, count) ← enrol config true
  tell [commandEvent <|
    programName ++ " v" ++ programVersion ++ " 启动，服务版本 " ++ registry.version ++ "，已注册 "
      ++ toString count ++ " 个探针"]
  match listen (← read) web with
  | .error error =>
      tell registry.destroyEvents
      throw error
  | .ok address =>
      let url := "http://" ++ address.render
      tell [event ("Web服务器已启动: " ++ url), event ("健康端点: " ++ url ++ "/health")]
      return ⟨registry, address, web.exposeCached⟩

/-- The event of answering a request with a report: a warning if the service is unhealthy. -/
def reportEvents (request : Web.Request) (report : Report) : List Logging.Event :=
  if request.path = Web.Resource.health.path ∧ !report.status.isAvailable then
    [⟨.warn, "vitals_registry::web::handlers", "健康检测未通过",
      [("status", .plain report.status.label)]⟩]
  else []

def answer (service : Service) (request : Web.Request) : Program (Service × Web.Response) := do
  let route := Web.Route.ofRequest service.exposeCached request
  match Web.Plan.ofRoute service.registry route with
  | .respond response => return (service, response)
  | .inquire question respond =>
      let (registry, inquiry) ← inquire service.registry question
      let report := registry.report (← read).snapshot inquiry
      tell (reportEvents request report)
      return ({ service with registry := registry }, respond report)

/-- Lets the clock of a service reach an instant. -/
def wait (service : Service) (instant : Nat) : Program Service := do
  return { service with registry := ← waitUntil service.registry instant }

def stop (service : Service) (signal : Signal) : Program Unit := do
  let notice :=
    match signal with
    | .interrupt => "接收到 Ctrl+C，开始优雅关闭..."
    | .terminate => "接收到 SIGTERM 信号，开始优雅关闭..."
  tell [event notice, event "Web服务器已关闭"]
  tell service.registry.destroyEvents
  tell [commandEvent "服务已停止"]

/-- A request and the instant at which it comes. -/
structure Visit where
  instant : Nat
  request : Web.Request
  deriving DecidableEq, Repr

/-- Answers requests, each at its instant or when the one before it is answered. -/
def answerAll (service : Service) : List Visit → Program (Service × List Web.Response)
  | [] => return (service, [])
  | visit :: later => do
      let service ← service.wait visit.instant
      let (service, response) ← service.answer visit.request
      let (service, responses) ← service.answerAll later
      return (service, response :: responses)

end Service

/-- What happens to a service: requests come, and then a signal. -/
structure Stay where
  visits : List Service.Visit
  /-- The instant at which the signal comes. -/
  endsAt : Nat
  signal : Signal

/-- Serves as long as it is to be; the answers to the requests are what it gives. -/
def serve (arguments : Arguments) (bind : Option String) (port : Option UInt16) (stay : Stay) :
    Program (List Web.Response) := do
  let service ← Service.start arguments bind port
  let (service, responses) ← service.answerAll stay.visits
  let service ← service.wait stay.endsAt
  service.stop stay.signal
  return responses

end Vitals.CommandLine
