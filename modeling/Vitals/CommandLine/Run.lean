import Vitals.CommandLine.Output
import Vitals.CommandLine.Service

/-!
# Runs

What each command does, and how a run ends: with the exit code of its command, with an error, or
without having started because the command line was refused. The codes tell these apart but for
one pair: a refused command line has the code of an unhealthy service.
-/

namespace Vitals.CommandLine

open Program

/-- Loads a configuration and prints an overview of it. -/
def validate (arguments : Arguments) (verbose : Bool) : Program Nat := do
  setUpJournal arguments none
  let path := arguments.configPath (← read).environment (← get).files
  print ["验证配置文件: " ++ path]
  let config ← loadFrom path
  print (configTexts verbose config)
  return 0

/-- The event of a check that found the service unhealthy. -/
def verdictEvents (status : Status) : List Logging.Event :=
  if status.isAvailable then []
  else
    [⟨.warn, "vitals_registry::cli::commands", "健康检测未通过",
      [("status", .plain status.label)]⟩]

/-- Checks one probe and prints its result. -/
def checkOne (registry : Registry) (format : OutputFormat) (name : String) :
    Program (Registry × Status) := do
  let (registry, inquiry) ← inquire registry (.one name)
  let result := inquiry.resultFor name
  tell [Logging.ofResult result]
  print (resultTexts format result)
  return (registry, result.status)

/-- Checks all probes and prints the report. -/
def checkAll (registry : Registry) (format : OutputFormat) : Program (Registry × Status) := do
  let (registry, inquiry) ← inquire registry .all
  let report := registry.report (← read).snapshot inquiry
  tell (report.checks.map Logging.ofResult)
  print (reportTexts format report)
  return (registry, report.status)

/-- Checks the configured probes, one or all, and gives the exit code of the verdict. -/
def check (arguments : Arguments) (format : OutputFormat) (probe : Option String) :
    Program Nat := do
  let config ← configuration arguments
  setUpJournal arguments (some config.global)
  let (registry, _) ← enrol config false
  let (registry, status) ←
    match probe with
    | some name => checkOne registry format name
    | none => checkAll registry format
  tell registry.destroyEvents
  tell (verdictEvents status)
  return status.exitCode

/-- Carries out the command of a command line. A service stays as long as it is to. -/
def program (stay : Stay) (arguments : Arguments) : Program Nat :=
  match arguments.command with
  | .serve bind port => do
      discard <| serve arguments bind port stay
      return 0
  | .check format probe => check arguments format probe
  | .validate verbose => validate arguments verbose
  | .version format => do
      print (versionTexts format)
      return 0

/-- How a run ended, and what it left behind. -/
structure Ending (α : Type) where
  outcome : Except Error α
  console : Console

/-- The program that writes the error it ends with to the journal. -/
def Program.reporting {α : Type} (program : Program α) : Program α :=
  tryCatch program fun error => do
    tell [⟨.error, "vitals_registry", "命令执行失败: " ++ error.message, []⟩]
    throw error

def Program.run {α : Type} (surroundings : Surroundings) (files : FileTree)
    (program : Program α) : Ending α :=
  let (outcome, console) :=
    (ReaderT.run program.reporting surroundings).run ⟨[], .idle, files⟩
  ⟨outcome, console⟩

/-- What is written to the standard error output when a program fails. -/
def complaint (error : Error) : String := "错误: " ++ error.message

/-- The exit code of an outcome: the one of the command, or the one of every error. -/
def exitCodeOf : Except Error Nat → Nat
  | .ok code => code
  | .error _ => 1

def Ending.exitCode (ending : Ending Nat) : Nat := exitCodeOf ending.outcome

/-- The text that a refused command line has printed. Help is not worded here. -/
def Refusal.texts : Refusal → List String
  | .version => [programName ++ " " ++ programVersion]
  | _ => []

/-- The exit code of a run that is started with some words of a grammar. -/
def exitCode (grammar : Grammar) (surroundings : Surroundings) (files : FileTree) (stay : Stay)
    (words : List String) : Nat :=
  match grammar surroundings.environment words with
  | .error refusal => refusal.exitCode
  | .ok arguments => ((program stay arguments).run surroundings files).exitCode

end Vitals.CommandLine
