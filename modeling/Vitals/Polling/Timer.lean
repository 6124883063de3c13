import Vitals.Execution
import Vitals.Polling.Schedule

/-!
# Timers

A timer executes a registered probe in the background, again and again. It waits for its next
tick or it runs an execution, never two at once: a tick that comes due meanwhile is handled when
the execution is over.

`Timer.advance` is the whole course of a timer up to an instant. It depends on nothing but the
timer and the number of calls its probe has seen; so timers never disturb each other.
-/

namespace Vitals

/-- A probe under registration: a number of its own, its options, and its behaviour. -/
structure Registration where
  /-- Told apart from every other registration, of the same name too. -/
  serial : Nat
  options : Options
  probe : Probe

/-- The background executions of a registration. -/
structure Timer where
  registration : Registration
  period : Nat
  /-- The next tick. -/
  due : Nat
  /-- The instant since which the timer has been waiting. -/
  idleSince : Nat
  /-- The execution under way. -/
  running : Option Execution

/-- An execution that answers a tick. -/
structure Tick where
  due : Nat
  execution : Execution

namespace Timer

/-- The timer of a registration from the instant on at which it is registered. The grid of its ticks
begins there: the task of a timer reads the clock when it first runs, and that is before any time
passes. -/
def start (now period : Nat) (registration : Registration) : Timer :=
  ⟨registration, period, Schedule.firstTick 1000 now period, now, none⟩

def name (timer : Timer) : String := timer.registration.options.name

/-- The instant at which a waiting timer handles its next tick. -/
def handlesAt (timer : Timer) : Nat := max timer.due timer.idleSince

/-- The execution that a waiting timer starts next, as call number `call` of its probe. -/
def nextExecution (timer : Timer) (call : Nat) : Execution :=
  ⟨timer.registration.options, timer.registration.probe call, timer.handlesAt⟩

/-- The timer when its next execution has started. -/
def begin (timer : Timer) (call : Nat) : Timer :=
  { timer with
    due := Schedule.nextTick timer.period timer.due timer.handlesAt
    running := some (timer.nextExecution call) }

def finish (timer : Timer) (execution : Execution) : Timer :=
  { timer with idleSince := execution.endsAt, running := none }

/-- What a timer did up to some instant. -/
structure Course where
  /-- The timer at that instant. -/
  timer : Timer
  /-- The executions it started, in their order. -/
  started : List Tick
  /-- The executions it took the result of, in their order. -/
  ended : List Execution

def Course.latest (course : Course) : Option Result :=
  course.ended.getLast?.map Execution.result

/-- What is left to do for a timer up to an instant. -/
def workload (timer : Timer) (horizon : Nat) : Nat :=
  2 * (horizon + 1 - timer.due) + if timer.running.isSome then 1 else 0

/-- The course of a timer up to and including the instant `horizon`, whose probe has been called
`calls` times. A timer whose period is zero never handles a tick. -/
def advance (horizon calls : Nat) (timer : Timer) : Course :=
  match running : timer.running with
  | some execution =>
      if execution.endsAt ≤ horizon then
        let course := advance horizon calls (timer.finish execution)
        { course with ended := execution :: course.ended }
      else ⟨timer, [], []⟩
  | none =>
      if ready : 0 < timer.period ∧ timer.handlesAt ≤ horizon then
        let execution := timer.nextExecution calls
        let course := advance horizon (if execution.calls then calls + 1 else calls)
          (timer.begin calls)
        { course with started := ⟨timer.due, execution⟩ :: course.started }
      else ⟨timer, [], []⟩
termination_by timer.workload horizon
decreasing_by
  · simp only [workload, finish, running]
    simp
  · have later := @Schedule.lt_nextTick timer.period timer.due timer.handlesAt ready.1
    have reached : timer.due ≤ horizon := Nat.le_trans (Nat.le_max_left _ _) ready.2
    simp only [workload, begin, running]
    simp
    omega

end Timer

end Vitals
