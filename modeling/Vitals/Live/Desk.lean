import Vitals.CommandLine.Run
import Vitals.Live.Network

/-!
# Runs at work

Carries out the parts of a run: what they print is printed, and their events are written where the
settings of the journal say.
-/

namespace Vitals.Live

open CommandLine

/-- What a run has left so far. -/
abbrev Desk := IO.Ref Console

/-- Writes events at the end of a log. -/
def writeEvents (settings : Logging.Settings) (events : List Logging.Event) : IO Unit := do
  let time := Timestamp.ofClock (← clock)
  let lines := events.map (·.stamped settings.json time)
  match settings.file with
  | some path =>
      let handle ← IO.FS.Handle.mk path .append
      for line in lines do handle.putStrLn line
  | none => for line in lines do IO.eprintln line

def newFile? (before after : Logging.Journal) : Option String :=
  match before, after with
  | .idle, .kept settings _ _ => settings.file
  | _, _ => none

/-- Carries out a part of a run. -/
def perform {α : Type} (desk : Desk) (surroundings : Surroundings) (part : Program α) :
    IO (Except Error α) := do
  let before ← desk.get
  let (outcome, after) := (ReaderT.run part.reporting surroundings).run before
  if let some path := newFile? before.journal after.journal then IO.FS.writeFile path ""
  for text in after.output do IO.println text
  if let .kept settings _ events := after.journal then writeEvents settings events
  desk.set { after with output := [], journal := after.journal.cleared }
  return outcome

/-- What a run finds around it, with the replies of the network on record. -/
def surroundings (environment : Environment) (startedAt : Nat) (record : Record)
    (listening : Except String Web.Address) : IO Surroundings := do
  return {
    environment := environment
    world := ⟨.ofRecord record, ← host⟩
    snapshot := ← snapshot startedAt
    now := ← clock
    listen := fun _ => listening }

end Vitals.Live
