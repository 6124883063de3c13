import Vitals.Options
import Vitals.Result

/-!
# Executions

One execution of a probe races a call of the probe against a timeout. How a call behaves is given as
data: it ends after a delay with an outcome, or it hangs. So the whole course of an execution is
settled when it starts; what time adds is only that it has not happened yet.

Whatever the call does, the execution ends with a result under the registered name, with the time
that was measured. A call that is not over when the timeout strikes is stopped.

All times are whole milliseconds, which is the resolution of a timer. The timeout of an execution
strikes when it is over, so the clock is taken to be able to tell that instant. A `Race` leaves it
to its timer when the timeout strikes, and comes to what an execution says where the timer is
punctual.
-/

namespace Vitals

/-- How a call of a probe ends. -/
inductive Outcome where
  | returned (result : Result)
  /-- An error: the outermost context first, the root cause last. -/
  | failed (message : String) (causes : List String)
  /-- A panic and its text, if it carries one. -/
  | panicked (text : Option String)

/-- How a call of a probe goes: it ends after a delay in milliseconds, or it never ends. -/
inductive Behaviour where
  | ends (delay : Nat) (outcome : Outcome)
  | hangs

/-- A probe: the behaviour of each of its calls, counted from 0. -/
abbrev Probe := Nat → Behaviour

/-- The probe that plays a list of behaviours and repeats the last one. -/
def Probe.ofScript (first : Behaviour) (rest : List Behaviour) : Probe :=
  fun call => (first :: rest).getD call ((first :: rest).getLast (List.cons_ne_nil first rest))

/-- An instant of the clock, in milliseconds from its start, as a timestamp. -/
def Timestamp.ofClock (instant : Nat) : Timestamp :=
  ⟨instant / 86400000, instant / 1000 % 86400, instant % 1000 * 1000000⟩

/-- An execution of a probe: the options it is held to, how the call behaves, when it started. -/
structure Execution where
  options : Options
  behaviour : Behaviour
  startedAt : Nat

namespace Execution

def notFound (name : String) : Result :=
  .unhealthy name ("probe '" ++ name ++ "' not found")

/-- The result of an execution that ran into its timeout. -/
def timedOut (name : String) (timeout : Nat) : Result :=
  { Result.unhealthy name
      ("probe '" ++ name ++ "' timed out after " ++ toString timeout ++ "ms") with
    duration := .ofMillis timeout }

/-- The result of a call that ended, under the registered name and with the measured time. An
error is reported by its outermost text, a panic by its text. -/
def conclude (name : String) (elapsed : Nat) : Outcome → Result
  | .returned result => { result with name := name, duration := .ofMillis elapsed }
  | .failed message _ => { Result.unhealthy name message with duration := .ofMillis elapsed }
  | .panicked text =>
      { Result.unhealthy name
          ("probe '" ++ name ++ "' panicked: " ++ text.getD "unknown panic") with
        duration := .ofMillis elapsed }

/-- The outcome of the call if it ends before the timeout. A call that would end at the very instant
of its timeout is late: both are due at once, and the waiter is resumed before the call is. A `Race`
leaves the order of the two open, and can end either way there. -/
def outcome? (execution : Execution) : Option (Nat × Outcome) :=
  match execution.behaviour with
  | .ends delay outcome => if delay < execution.options.timeout then some (delay, outcome) else none
  | .hangs => none

/-- The time that the execution takes: the delay of the call, the timeout at most. -/
def elapsed (execution : Execution) : Nat :=
  match execution.outcome? with
  | some (delay, _) => delay
  | none => execution.options.timeout

/-- The instant at which the execution ends, unless it is cancelled. -/
def endsAt (execution : Execution) : Nat := execution.startedAt + execution.elapsed

def result (execution : Execution) : Result :=
  let result :=
    match execution.outcome? with
    | some (delay, outcome) => conclude execution.options.name delay outcome
    | none => timedOut execution.options.name execution.options.timeout
  { result with timestamp := .ofClock execution.endsAt }

/-- The probe is called at all: a timeout of zero strikes before. -/
def calls (execution : Execution) : Bool := 0 < execution.options.timeout

/-- The call comes to its own end. -/
def completes (execution : Execution) : Bool := execution.outcome?.isSome

@[simp]
theorem name_result (execution : Execution) :
    execution.result.name = execution.options.name := by
  unfold result
  split
  · next delay outcome _ => cases outcome <;> rfl
  · rfl

@[simp]
theorem duration_result (execution : Execution) :
    execution.result.duration = .ofMillis execution.elapsed := by
  unfold result elapsed
  split
  · next delay outcome _ => cases outcome <;> rfl
  · rfl

end Execution

end Vitals
