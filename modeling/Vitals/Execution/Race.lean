import Vitals.Execution
import Vitals.Polling.Schedule

/-!
# The race of a call and its timeout

An execution, one event after the other. The call runs as a task of its own. Somebody waits for the
task and holds it: whenever there is something new, the waiter asks the task first, and looks at the
clock only if the task is still running. Who has an answer, or is given up, lets go of the task, and
a task that nobody holds is stopped. Time passes while nothing else can happen.

When the timeout strikes is up to a timer, of which a race knows nothing but the time it sets for a
timeout: `Alarm`. An execution tells what a race comes to if its timeout strikes when it is due.

A task that was stopped has no outcome; a waiter that asked it would be told that the call was
cancelled.
-/

namespace Vitals

/-- The task that carries out a call. -/
inductive Task where
  | running
  | ended (outcome : Outcome)
  | stopped

/-- The task when nobody holds it any more. -/
def Task.released : Task → Task
  | .running => .stopped
  | task => task

/-- Whoever waits for an execution. -/
inductive Waiter where
  | waiting
  /-- It has its answer since some instant. -/
  | answered (instant : Nat) (result : Result)
  /-- It was given up before. -/
  | gone

/-- A timer that strikes once: after how many milliseconds a timeout strikes that is set at an
instant. -/
abbrev Alarm := Nat → Nat → Nat

namespace Alarm

/-- The timeout that is set at an instant strikes when it is over, neither earlier nor later. -/
def Punctual (alarm : Alarm) (now timeout : Nat) : Prop := alarm now timeout = timeout

/-- The alarm of a clock that can tell some instants only. A timeout whose end it cannot tell
strikes in the far future. -/
def ofClock : Alarm := fun now timeout =>
  if Schedule.tells 1000 (now + timeout) then timeout else Schedule.farFuture * 1000

theorem Punctual.eq {alarm : Alarm} {now timeout : Nat} (punctual : alarm.Punctual now timeout) :
    alarm now timeout = timeout := punctual

theorem punctual_ofClock {now timeout : Nat}
    (told : Schedule.tells 1000 (now + timeout) = true) : ofClock.Punctual now timeout :=
  if_pos told

end Alarm

/-- What an execution has come to at some instant. -/
structure Race where
  execution : Execution
  /-- The milliseconds from the start after which the timeout strikes. -/
  patience : Nat
  now : Nat
  task : Task
  waiter : Waiter

namespace Execution

def cancelledMessage (name : String) : String := "probe '" ++ name ++ "' was cancelled"

/-- The result of an execution whose task was stopped under its waiter. -/
def cancelled (name : String) (elapsed : Nat) : Result :=
  { Result.unhealthy name (cancelledMessage name) with duration := .ofMillis elapsed }

end Execution

namespace Race

def start (alarm : Alarm) (execution : Execution) : Race :=
  ⟨execution, alarm execution.startedAt execution.options.timeout, execution.startedAt, .running,
    .waiting⟩

def elapsed (race : Race) : Nat := race.now - race.execution.startedAt

/-- What the task tells when it is asked; a running task tells nothing. -/
def told? (race : Race) : Option Result :=
  match race.task with
  | .running => none
  | .ended outcome => some (Execution.conclude race.execution.options.name race.elapsed outcome)
  | .stopped => some (Execution.cancelled race.execution.options.name race.elapsed)

/-- The waiter has an answer and lets go of the task. -/
def answer (race : Race) (result : Result) : Race :=
  { race with
    task := race.task.released
    waiter := .answered race.now { result with timestamp := .ofClock race.now } }

/-- The call comes to its end, if its delay is over. -/
def finish? (race : Race) : Option Race :=
  match race.task, race.execution.behaviour with
  | .running, .ends delay outcome =>
      if delay ≤ race.elapsed then some { race with task := .ended outcome } else none
  | _, _ => none

/-- The waiter is told how the task went. -/
def collect? (race : Race) : Option Race :=
  match race.waiter with
  | .waiting => race.told?.map race.answer
  | _ => none

/-- The timeout strikes while the task is running. The result tells the timeout that was asked for,
whenever it strikes. -/
def expire? (race : Race) : Option Race :=
  match race.waiter, race.task with
  | .waiting, .running =>
      let options := race.execution.options
      if race.patience ≤ race.elapsed then
        some (race.answer (Execution.timedOut options.name options.timeout))
      else none
  | _, _ => none

/-- The waiter is given up. -/
def abandon? (race : Race) : Option Race :=
  match race.waiter with
  | .waiting => some { race with task := race.task.released, waiter := .gone }
  | _ => none

/-- A millisecond passes, if nothing else can happen. -/
def tick? (race : Race) : Option Race :=
  if race.finish?.isNone ∧ race.collect?.isNone ∧ race.expire?.isNone then
    some { race with now := race.now + 1 }
  else none

/-- What can happen in a race. -/
inductive Event where
  | finish
  | collect
  | expire
  | abandon
  | tick
  deriving DecidableEq, Repr

/-- The race when an event has happened, if it can. -/
def step (race : Race) : Event → Option Race
  | .finish => race.finish?
  | .collect => race.collect?
  | .expire => race.expire?
  | .abandon => race.abandon?
  | .tick => race.tick?

def run (race : Race) : List Event → Option Race
  | [] => some race
  | event :: rest => (race.step event).bind (·.run rest)

end Race

end Vitals
