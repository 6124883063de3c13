import Vitals.Polling.Scheduler
import Vitals.Proofs.Polling.Turns
import Vitals.Registry.Inquiry

/-!
# Runs of a scheduler

Everything that can happen to a scheduler, one action after the other: what its callers do, the
executions that inquiries put on its record, and the passing of time. Time passes in two ways.
`advance` lets every timer take all turns that are due. `pass` lets each take only so many of them,
none at all included; so an action may strike a timer anywhere in its cycle, and the timers take
their turns in any order.

`deliveries` is the history of the cache: each execution whose result a timer took, in the order
in which they were taken.
-/

namespace Vitals

/-- An execution whose result the timer of a registration took and put into the cache. -/
structure Delivery where
  registration : Registration
  execution : Execution

namespace Delivery

def name (delivery : Delivery) : String := delivery.registration.options.name

def result (delivery : Delivery) : Result := delivery.execution.result

def isOf (name : String) (serial : Nat) (delivery : Delivery) : Bool :=
  delivery.name == name && delivery.registration.serial == serial

/-- The result of the last delivery that has a property. -/
def last? (concerns : Delivery → Bool) (history : List Delivery) : Option Result :=
  (history.filter concerns).getLast?.map result

theorem last?_append (concerns : Delivery → Bool) (earlier later : List Delivery) :
    last? concerns (earlier ++ later) = (last? concerns later <|> last? concerns earlier) := by
  simp only [last?, List.filter_append, List.getLast?_append]
  cases (later.filter concerns).getLast? <;> rfl

theorem last?_congr {left right : Delivery → Bool} {history : List Delivery}
    (agree : ∀ delivery ∈ history, left delivery = right delivery) :
    last? left history = last? right history := by
  simp only [last?, List.filter_congr agree]

theorem last?_eq_none {concerns : Delivery → Bool} {history : List Delivery}
    (none_concerned : ∀ delivery ∈ history, concerns delivery = false) :
    last? concerns history = none := by
  have empty : history.filter concerns = [] := by
    rw [List.filter_eq_nil_iff]
    intro delivery delivery_mem
    simp [none_concerned delivery delivery_mem]
  simp [last?, empty]

theorem mem_of_last?_eq_some {name : String} {history : List Delivery} {result : Result}
    (last : last? (·.name == name) history = some result) :
    ∃ delivery ∈ history, delivery.name = name ∧ delivery.result = result := by
  rcases Option.map_eq_some_iff.mp last with ⟨delivery, isLast, rfl⟩
  rcases List.mem_filter.mp (List.mem_of_getLast? isLast) with ⟨delivery_mem, named⟩
  exact ⟨delivery, delivery_mem, by simpa using named, rfl⟩

end Delivery

namespace Scheduler

/-- The course of a timer that takes a number of turns at most. -/
def courseWithin (scheduler : Scheduler) (horizon : Nat) (turns : String → Nat) (timer : Timer) :
    Timer.Course :=
  timer.proceed horizon (turns timer.name)
    (scheduler.ledger.callsStarted timer.name timer.registration.serial)

/-- Lets a number of milliseconds pass, in which the timer of a name takes a number of turns at
most. -/
def pass (scheduler : Scheduler) (milliseconds : Nat) (turns : String → Nat) : Scheduler :=
  scheduler.follow (scheduler.now + milliseconds)
    (scheduler.courseWithin (scheduler.now + milliseconds) turns)

/-- A number of turns that suffices for each timer. -/
def workload (scheduler : Scheduler) (horizon : Nat) : Nat :=
  (scheduler.timers.map (·.workload horizon)).foldl max 0

theorem follow_congr {scheduler : Scheduler} {courseOf other : Timer → Timer.Course}
    (agree : ∀ timer ∈ scheduler.timers, courseOf timer = other timer) (horizon : Nat) :
    scheduler.follow horizon courseOf = scheduler.follow horizon other := by
  have sameCourses : scheduler.timers.map (fun timer => (timer, courseOf timer)) =
      scheduler.timers.map (fun timer => (timer, other timer)) := by
    apply List.map_congr_left
    intro timer timer_mem
    rw [agree timer timer_mem]
  simp only [follow, sameCourses]

theorem courseWithin_workload {scheduler : Scheduler} {timer : Timer}
    (timer_mem : timer ∈ scheduler.timers) (horizon : Nat) :
    scheduler.courseWithin horizon (fun _ => scheduler.workload horizon) timer =
      scheduler.course horizon timer := by
  have workload_mem : timer.workload horizon ∈ scheduler.timers.map (·.workload horizon) :=
    List.mem_map_of_mem timer_mem
  apply Timer.proceed_eq_advance
  rw [workload, List.foldl_max_eq_max (List.ne_nil_of_mem workload_mem)]
  exact Nat.le_trans (List.le_max_of_mem workload_mem) (Nat.le_max_right _ _)

/-- To let all turns be taken is to let enough of them be taken. -/
theorem advance_eq_pass (scheduler : Scheduler) (milliseconds : Nat) :
    scheduler.advance milliseconds =
      scheduler.pass milliseconds
        fun _ => scheduler.workload (scheduler.now + milliseconds) :=
  follow_congr (fun _ timer_mem => (courseWithin_workload timer_mem _).symm) _

/-- What the timers deliver when they go through their courses. -/
def deliveriesOf (scheduler : Scheduler) (courseOf : Timer → Timer.Course) : List Delivery :=
  scheduler.timers.flatMap fun timer =>
    (courseOf timer).ended.map fun execution => ⟨timer.registration, execution⟩

theorem deliveriesOf_congr {scheduler : Scheduler} {courseOf other : Timer → Timer.Course}
    (agree : ∀ timer ∈ scheduler.timers, courseOf timer = other timer) :
    scheduler.deliveriesOf courseOf = scheduler.deliveriesOf other := by
  rw [deliveriesOf, deliveriesOf, List.flatMap_def, List.flatMap_def]
  congr 1
  apply List.map_congr_left
  intro timer timer_mem
  rw [agree timer timer_mem]

/-- Starts the timer of a probe that is registered anew. -/
def launch (scheduler : Scheduler) (options : Options) (probe : Probe) : Scheduler :=
  { scheduler with ledger := scheduler.ledger.issue options.name }.start
    (scheduler.ledger.registration options probe)

/-- What can happen to a scheduler. -/
inductive Action where
  | start (options : Options) (probe : Probe)
  | stop (name : String)
  | stopAll
  | drop
  | inquire (inquiry : Inquiry)
  | abandon (ticket : Nat)
  | advance (milliseconds : Nat)
  | pass (milliseconds : Nat) (turns : String → Nat)

def step (scheduler : Scheduler) : Action → Scheduler
  | .start options probe => scheduler.launch options probe
  | .stop name => scheduler.stop name
  | .stopAll => scheduler.stopAll
  | .drop => scheduler.drop
  | .inquire inquiry => { scheduler with ledger := scheduler.ledger.record inquiry.runs }
  | .abandon ticket =>
      { scheduler with ledger := scheduler.ledger.cancel (·.owner == .inquiry ticket) }
  | .advance milliseconds => scheduler.advance milliseconds
  | .pass milliseconds turns => scheduler.pass milliseconds turns

def stepDeliveries (scheduler : Scheduler) : Action → List Delivery
  | .advance milliseconds =>
      scheduler.deliveriesOf (scheduler.course (scheduler.now + milliseconds))
  | .pass milliseconds turns =>
      scheduler.deliveriesOf (scheduler.courseWithin (scheduler.now + milliseconds) turns)
  | _ => []

def run (scheduler : Scheduler) (actions : List Action) : Scheduler :=
  actions.foldl step scheduler

def deliveries (scheduler : Scheduler) : List Action → List Delivery
  | [] => []
  | action :: rest => scheduler.stepDeliveries action ++ (scheduler.step action).deliveries rest

@[simp]
theorem run_cons (scheduler : Scheduler) (action : Action) (rest : List Action) :
    scheduler.run (action :: rest) = (scheduler.step action).run rest := rfl

theorem run_append (scheduler : Scheduler) (earlier later : List Action) :
    scheduler.run (earlier ++ later) = (scheduler.run earlier).run later :=
  List.foldl_append

theorem deliveries_append (scheduler : Scheduler) (earlier later : List Action) :
    scheduler.deliveries (earlier ++ later) =
      scheduler.deliveries earlier ++ (scheduler.run earlier).deliveries later := by
  induction earlier generalizing scheduler with
  | nil => rfl
  | cons action rest ih => simp [deliveries, ih]

/-- What holds at the start and is kept by each action holds after every run. -/
theorem run_induction (invariant : Scheduler → Prop) {scheduler : Scheduler}
    (start : invariant scheduler)
    (step : ∀ scheduler action, invariant scheduler → invariant (scheduler.step action))
    (actions : List Action) : invariant (scheduler.run actions) :=
  List.foldlRecOn actions Scheduler.step start
    fun scheduler still action _ => step scheduler action still

/-- A passage of time is a number of courses, one for each timer. -/
inductive Passage (scheduler : Scheduler) : Scheduler → List Delivery → Prop where
  | follow (milliseconds : Nat) (courseOf : Timer → Timer.Course)
      (isOf : ∀ timer, (courseOf timer).IsOf timer) :
      Passage scheduler (scheduler.follow (scheduler.now + milliseconds) courseOf)
        (scheduler.deliveriesOf courseOf)

theorem passage_pass (scheduler : Scheduler) (milliseconds : Nat) (turns : String → Nat) :
    scheduler.Passage (scheduler.step (.pass milliseconds turns))
      (scheduler.stepDeliveries (.pass milliseconds turns)) :=
  .follow milliseconds _ fun timer => Timer.Course.isOf_proceed _ _ _ timer

theorem passage_advance (scheduler : Scheduler) (milliseconds : Nat) :
    scheduler.Passage (scheduler.step (.advance milliseconds))
      (scheduler.stepDeliveries (.advance milliseconds)) := by
  have passage := scheduler.passage_pass milliseconds
    fun _ => scheduler.workload (scheduler.now + milliseconds)
  have sameDeliveries : scheduler.stepDeliveries (.advance milliseconds) =
      scheduler.stepDeliveries (.pass milliseconds
        fun _ => scheduler.workload (scheduler.now + milliseconds)) :=
    deliveriesOf_congr fun _ timer_mem => (courseWithin_workload timer_mem _).symm
  rw [step, advance_eq_pass, sameDeliveries]
  exact passage

end Scheduler

end Vitals
