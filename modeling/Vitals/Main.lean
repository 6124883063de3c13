import Vitals.Live.Serve

/-!
# The program

Reads the command line and the host, carries out the command, and ends with its exit code.
-/

namespace Vitals.Live

open CommandLine

/-- The probes that a command executes once. -/
def examined (config : Config) : Command → List Config.Probe
  | .check _ (some name) => config.probes.filter (·.name == name)
  | .check _ none => config.probes
  | _ => []

/-- Carries out the command of a command line. -/
def run (environment : Environment) (arguments : Arguments) : IO UInt32 := do
  let startedAt ← clock
  let candidates :=
    [arguments.configPath environment .empty, Config.defaultPath environment .empty, "vitals.toml"]
  let found ← survey candidates
  let loaded :=
    Config.loadFile .enabled environment found (arguments.configPath environment found)
  let config := loaded.toOption.getD .default
  let desk ← IO.mkRef ⟨[], .idle, ← survey (candidates ++ config.global.logFile.toList)⟩
  let outcome ←
    match arguments.command with
    | .serve bind port => serve desk environment startedAt config arguments bind port
    | command =>
        let record ← (observeAll config (examined config command)).block
        let around ← surroundings environment startedAt record (.error "")
        perform desk around (program ⟨[], 0, .terminate⟩ arguments)
  if let .error error := outcome then IO.eprintln (complaint error)
  return (exitCodeOf outcome).toUInt32

end Vitals.Live

open Vitals Vitals.Live Vitals.CommandLine in
/-- Runs the program with the words of its command line. -/
def main (words : List String) : IO UInt32 := do
  let environment ← environment
  match Arguments.ofWords environment words with
  | .ok arguments => run environment arguments
  | .error refusal =>
      for text in refusal.texts do IO.println text
      return refusal.exitCode.toUInt32
