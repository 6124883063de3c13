import Vitals.CommandLine.Arguments
import Vitals.Config.Loading
import Vitals.Logging.Journal
import Vitals.Registry.Configured
import Vitals.Web.Address

/-!
# Programs

What a command does, as a computation: it looks at its surroundings, writes to its output and its
journal, creates files, and may fail. What it has written when it fails stays written.
-/

namespace Vitals.CommandLine

/-- What a run finds around it. -/
structure Surroundings where
  environment : Environment
  world : World
  /-- The state of the host, as reports tell it. -/
  snapshot : Snapshot
  /-- The clock at the start. -/
  now : Nat
  /-- The address that one listens on in the end, or why nobody can listen on an address. -/
  listen : Web.Address → Except String Web.Address

/-- What a run has left behind. -/
structure Console where
  /-- The texts that were printed, each with an end of line behind it. -/
  output : List String
  journal : Logging.Journal
  files : FileTree

/-- A computation of a run. -/
abbrev Program := ReaderT Surroundings (ExceptT Error (StateM Console))

namespace Program

def print (texts : List String) : Program Unit :=
  modify fun console => { console with output := console.output ++ texts }

def tell (events : List Logging.Event) : Program Unit :=
  modify fun console => { console with journal := events.foldl .write console.journal }

/-- The value of an attempt; a failed one ends the run. -/
def attempt {α : Type} : Except Error α → Program α
  | .ok value => return value
  | .error error => throw error

end Program

open Program

/-! ## What commands have in common -/

def Arguments.configPath (arguments : Arguments) (environment : Environment)
    (files : FileTree) : String :=
  arguments.config.getD (Config.defaultPath environment files)

/-- The settings of the journal: the level on the command line goes before the configured one. -/
def Arguments.settings (arguments : Arguments) (global : Option Config.Global) :
    Except Error Logging.Settings := do
  let level := (arguments.logLevel <|> global.map (·.logLevel)).getD "info"
  let settings ←
    (Logging.Settings.ofLevelName level (global.any (·.jsonLogs))).mapError .other
  return { settings with file := global.bind (·.logFile) }

def setUpJournal (arguments : Arguments) (global : Option Config.Global) : Program Unit := do
  let settings ← attempt (arguments.settings global)
  let console ← get
  let directives := ((← read).environment.text? "RUST_LOG").getD ""
  let setup := console.journal.setUp settings directives console.files
  set { console with journal := setup.journal, files := setup.files }
  match setup.fault with
  | some reason => throw (.other reason)
  | none => return

def loadFrom (path : String) : Program Config := do
  let loaded := Config.loadFile .enabled (← read).environment (← get).files path
  let config ← attempt (loaded.mapError .config)
  tell [⟨.info, "vitals_registry::config::loader", "成功加载配置文件: " ++ path, []⟩]
  return config

/-- Loads the configuration. If none is named and there is none in the default place, it is the one
in which nothing is set. -/
def configuration (arguments : Arguments) : Program Config := do
  let path := arguments.configPath (← read).environment (← get).files
  if arguments.config.isNone && !(← get).files.has path then return .default
  loadFrom path

/-- Registers the probes of a configuration in a new registry, and tells how many there are. -/
def enrol (config : Config) (polling : Bool) : Program (Registry × Nat) := do
  let surroundings ← read
  let registry := Registry.create config.global.serviceVersion surroundings.now
  let enrolment := Enrolment.ofConfig config surroundings.world polling registry
  tell enrolment.events
  let count ← attempt enrolment.outcome
  return (enrolment.registry, count)

/-- Lets the clock of a registry reach an instant. -/
def waitUntil (registry : Registry) (instant : Nat) : Program Registry := do
  let later := registry.advanceTo (max registry.now instant)
  tell (Scheduler.advanceEvents registry.scheduler later.scheduler)
  return later

/-- Asks a question and waits for the end of its inquiry. -/
def inquire (registry : Registry) (question : Question) : Program (Registry × Inquiry) := do
  let inquiry := registry.inquiry question
  let later ← waitUntil (registry.ask question) inquiry.endsAt
  tell (inquiry.events question)
  return (later, inquiry)

end Vitals.CommandLine
