import Vitals.Data.Named
import Vitals.Polling.Ledger

/-!
# The scheduler

The timers that run, at most one for a name, and for each name the result of the last background
execution that ended. Stopping a name takes its result away. Starting a timer in the place of
another one does not: the old result stays until the new timer has one of its own.
-/

namespace Vitals

/-- The timers, the latest results, and the ledger. -/
structure Scheduler where
  ledger : Ledger
  timers : List Timer
  latest : Named Result

namespace Scheduler

/-- A scheduler whose clock shows an instant; no timer runs. -/
def startingAt (now : Nat) : Scheduler := ⟨.startingAt now, [], []⟩

def empty : Scheduler := startingAt 0

instance : Inhabited Scheduler := ⟨empty⟩

def now (scheduler : Scheduler) : Nat := scheduler.ledger.now

/-- Whether a timer runs for a name. -/
def isPolling (scheduler : Scheduler) (name : String) : Bool :=
  scheduler.timers.any (·.name == name)

def cached (scheduler : Scheduler) (name : String) : Option Result :=
  scheduler.latest.get? name

/-- The scheduler without the timer of a name; what the timer was executing is cancelled. -/
def halt (scheduler : Scheduler) (name : String) : Scheduler :=
  { scheduler with
    ledger := scheduler.ledger.cancel fun run => run.owner == .timer && run.name == name
    timers := scheduler.timers.filter (·.name != name) }

/-- Stops the timer of a name and forgets its result. -/
def stop (scheduler : Scheduler) (name : String) : Scheduler :=
  let halted := scheduler.halt name
  { halted with latest := halted.latest.erase name }

/-- Starts the timer of a registration in the place of the one its name had. A registration
without an interval has no timer, and its name is stopped. -/
def start (scheduler : Scheduler) (registration : Registration) : Scheduler :=
  match registration.options.interval with
  | none => scheduler.stop registration.options.name
  | some period =>
      let halted := scheduler.halt registration.options.name
      { halted with timers := halted.timers ++ [.start scheduler.now period registration] }

/-- Stops all timers and forgets all results. -/
def stopAll (scheduler : Scheduler) : Scheduler :=
  { ledger := scheduler.ledger.cancel (·.owner == .timer)
    timers := []
    latest := [] }

/-- The end of a scheduler: its timers and what they were executing are gone. The results stay,
but nobody can ask for them any more. -/
def drop (scheduler : Scheduler) : Scheduler :=
  { scheduler with
    ledger := scheduler.ledger.cancel (·.owner == .timer)
    timers := [] }

def course (scheduler : Scheduler) (horizon : Nat) (timer : Timer) : Timer.Course :=
  timer.advance horizon
    (scheduler.ledger.callsStarted timer.name timer.registration.serial)

def runsOf (timer : Timer) (course : Timer.Course) : List Run :=
  course.started.map fun tick =>
    ⟨timer.registration.serial, .timer, some tick.due, tick.execution, none⟩

/-- Takes over the latest result of a timer, if it has a new one. -/
def keepLatest (latest : Named Result) (timer : Timer) (course : Timer.Course) : Named Result :=
  match course.latest with
  | some result => latest.insert timer.name result
  | none => latest

/-- Moves the clock to an instant, each timer having gone through a course of its own. -/
def follow (scheduler : Scheduler) (horizon : Nat) (courseOf : Timer → Timer.Course) :
    Scheduler :=
  let courses := scheduler.timers.map fun timer => (timer, courseOf timer)
  { ledger :=
      { scheduler.ledger.record (courses.flatMap fun entry => runsOf entry.1 entry.2) with
        now := horizon }
    timers := courses.map fun entry => entry.2.timer
    latest := courses.foldl (fun latest entry => keepLatest latest entry.1 entry.2)
      scheduler.latest }

/-- Moves the clock to an instant and lets every timer run its course up to it. -/
def advanceTo (scheduler : Scheduler) (horizon : Nat) : Scheduler :=
  scheduler.follow horizon (scheduler.course horizon)

/-- Lets a number of milliseconds pass. -/
def advance (scheduler : Scheduler) (milliseconds : Nat) : Scheduler :=
  scheduler.advanceTo (scheduler.now + milliseconds)

end Scheduler

end Vitals
