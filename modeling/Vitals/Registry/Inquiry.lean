import Vitals.Polling.Ledger
import Vitals.Report

/-!
# Inquiries

A check on demand: one probe, or all that are registered, executed anew at the instant of the
question. The executions run side by side, and the inquiry is over with the last of them. What is
registered, changed or removed meanwhile does not matter to it.
-/

namespace Vitals

/-- What is asked: the check of one name, or of everything that is registered. -/
inductive Question where
  | one (name : String)
  | all
  deriving DecidableEq, Repr

/-- A check on demand. -/
structure Inquiry where
  ticket : Nat
  askedAt : Nat
  /-- The registrations at the instant of the question, each with its execution. -/
  entries : List (Registration × Execution)

namespace Inquiry

def executions (inquiry : Inquiry) : List Execution :=
  inquiry.entries.map Prod.snd

/-- The instant at which the last execution ends. -/
def endsAt (inquiry : Inquiry) : Nat :=
  (inquiry.executions.map Execution.endsAt).foldl max inquiry.askedAt

def results (inquiry : Inquiry) : List Result :=
  inquiry.executions.map Execution.result

/-- The result of a single check; a name that is not registered has one too. -/
def resultFor (inquiry : Inquiry) (name : String) : Result :=
  inquiry.results.headD
    { Execution.notFound name with timestamp := .ofClock inquiry.askedAt }

/-- The names that were critical at the instant of the question. -/
def critical (inquiry : Inquiry) : List String :=
  (inquiry.entries.filter (·.1.options.critical)).map (·.1.options.name)

def status (inquiry : Inquiry) : Status :=
  aggregate inquiry.critical inquiry.results

def runs (inquiry : Inquiry) : List Run :=
  inquiry.entries.map fun entry =>
    ⟨entry.1.serial, .inquiry inquiry.ticket, none, entry.2, none⟩

/-- The report of the inquiry, as its last execution ends. -/
def report (version : String) (createdAt : Nat) (system : Snapshot) (inquiry : Inquiry) : Report :=
  { status := inquiry.status
    version := version
    uptime := .ofMillis (inquiry.endsAt - createdAt)
    timestamp := .ofClock inquiry.endsAt
    checks := inquiry.results
    system := system }

end Inquiry

end Vitals
