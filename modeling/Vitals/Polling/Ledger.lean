import Vitals.Polling.Timer

/-!
# The ledger of executions

The clock, and a record of every execution ever started: whose it was, and whether it was
cancelled. An execution that was not cancelled is over as soon as the clock has reached its end,
so a record is written once and touched again only to cancel.
-/

namespace Vitals

/-- Who waits for an execution: the timer of its registration, or an inquiry. -/
inductive Owner where
  | timer
  | inquiry (ticket : Nat)
  deriving DecidableEq, Repr

/-- The record of an execution. -/
structure Run where
  /-- Which registration of its name the probe belongs to. -/
  serial : Nat
  owner : Owner
  /-- The tick that the execution answers, if a timer started it. -/
  due : Option Nat
  execution : Execution
  cancelledAt : Option Nat

namespace Run

def name (run : Run) : String := run.execution.options.name

/-- The execution is under way. -/
def isOpen (now : Nat) (run : Run) : Bool :=
  run.cancelledAt.isNone && now < run.execution.endsAt

/-- The call of the probe has come to its own end. -/
def hasCompleted (now : Nat) (run : Run) : Bool :=
  run.cancelledAt.isNone && run.execution.completes && run.execution.endsAt ≤ now

/-- The execution belongs to a registration. -/
def isOf (name : String) (serial : Nat) (run : Run) : Bool :=
  run.name == name && run.serial == serial

end Run

/-- The clock in milliseconds, the names registered so far, and all executions in the order in
which they were recorded. -/
structure Ledger where
  now : Nat
  /-- Every accepted registration adds its name. -/
  issued : List String
  runs : List Run

namespace Ledger

/-- The clock at an instant and nothing on record. -/
def startingAt (now : Nat) : Ledger := ⟨now, [], []⟩

instance : Inhabited Ledger := ⟨startingAt 0⟩

/-- The registration of a probe: the number tells how often its name was registered before. -/
def registration (ledger : Ledger) (options : Options) (probe : Probe) : Registration :=
  ⟨ledger.issued.count options.name, options, probe⟩

def issue (ledger : Ledger) (name : String) : Ledger :=
  { ledger with issued := ledger.issued ++ [name] }

/-- How many calls of a registration's probe have started. -/
def callsStarted (ledger : Ledger) (name : String) (serial : Nat) : Nat :=
  ledger.runs.countP fun run => run.isOf name serial && run.execution.calls

/-- How many calls of a registration's probe have come to their own end. -/
def callsCompleted (ledger : Ledger) (name : String) (serial : Nat) : Nat :=
  ledger.runs.countP fun run => run.isOf name serial && run.hasCompleted ledger.now

def record (ledger : Ledger) (runs : List Run) : Ledger :=
  { ledger with runs := ledger.runs ++ runs }

/-- The ledger with those executions cancelled that are under way and have a property. -/
def cancel (ledger : Ledger) (concerns : Run → Bool) : Ledger :=
  { ledger with
    runs := ledger.runs.map fun run =>
      if run.isOpen ledger.now && concerns run then { run with cancelledAt := some ledger.now }
      else run }

end Ledger

end Vitals
