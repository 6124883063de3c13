import Vitals.Proofs.Polling.Names

/-!
# Time in parts

To let time pass twice is to let the sum of both pass once. The clock may stop between two turns of
a timer or while its call is under way; the timer goes on from there with as many calls on record
as it had. Only the record can tell the difference, by the order in which executions of different
names stand in it.
-/

namespace Vitals

namespace Timer

variable {horizon later calls : Nat} {timer : Timer}

/-- Two courses, the second from where the first has led. -/
def Course.andThen (first second : Course) : Course :=
  ⟨second.timer, first.started ++ second.started, first.ended ++ second.ended⟩

/-- How many calls the probe has had at the end of a course. -/
def Course.callsAfter (calls : Nat) (course : Course) : Nat :=
  calls + course.started.countP (·.execution.calls)

theorem Course.callsAfter_cons (calls : Nat) (tick : Tick) (course : Course) :
    Course.callsAfter calls { course with started := tick :: course.started } =
      course.callsAfter (if tick.execution.calls then calls + 1 else calls) := by
  simp only [callsAfter, List.countP_cons]
  split <;> omega

/-- A timer can be stopped on its way to an instant. -/
theorem advance_of_le (le : horizon ≤ later) :
    timer.advance later calls =
      (timer.advance horizon calls).andThen
        ((timer.advance horizon calls).timer.advance later
          ((timer.advance horizon calls).callsAfter calls)) := by
  induction calls, timer using advance.induct horizon with
  | case1 calls timer execution running finished ih =>
      rw [advance_of_running running, if_pos (Nat.le_trans finished le), ih,
        @advance_of_running horizon calls timer execution running, if_pos finished]
      rfl
  | case2 calls timer execution running lasts =>
      rw [@advance_of_running horizon calls timer execution running, if_neg lasts]
      rfl
  | case3 calls timer idle ready execution ih =>
      rw [advance_of_idle idle, if_pos ⟨ready.1, Nat.le_trans ready.2 le⟩,
        @advance_of_idle horizon calls timer idle, if_pos ready]
      simp only [dite_eq_ite, execution] at ih
      simp only [ih, Course.callsAfter_cons]
      rfl
  | case4 calls timer idle unready =>
      rw [@advance_of_idle horizon calls timer idle, if_neg unready]
      rfl

end Timer

namespace Scheduler

variable {scheduler : Scheduler} {name : String}

/-- The calls that a timer has made are on record. -/
theorem callsStarted_follow {courseOf : Timer → Timer.Course}
    (isOf : ∀ timer, (courseOf timer).IsOf timer) {timer : Timer}
    (single : scheduler.timersOf name = [timer]) (horizon : Nat) :
    (scheduler.follow horizon courseOf).ledger.callsStarted name timer.registration.serial =
      (courseOf timer).callsAfter
        (scheduler.ledger.callsStarted name timer.registration.serial) := by
  rw [Ledger.callsStarted_eq_countP, recordOf_follow isOf, single, List.countP_append,
    ← Ledger.callsStarted_eq_countP, Timer.Course.callsAfter, List.flatMap_singleton, runsOf,
    List.countP_map]
  congr 2
  funext tick
  simp

theorem course_of_le {timer : Timer} (single : scheduler.timersOf name = [timer])
    {horizon later : Nat} (le : horizon ≤ later) :
    scheduler.course later timer =
      (scheduler.course horizon timer).andThen
        ((scheduler.advanceTo horizon).course later (scheduler.course horizon timer).timer) := by
  have timer_mem : timer ∈ scheduler.timersOf name := by simp [single]
  have named : timer.name = name := name_of_mem_timersOf timer_mem
  have same : (scheduler.course horizon timer).timer.registration = timer.registration :=
    (scheduler.isOf_course horizon timer).registration
  have calls : (scheduler.advanceTo horizon).ledger.callsStarted
        (scheduler.course horizon timer).timer.name
        (scheduler.course horizon timer).timer.registration.serial =
      (scheduler.course horizon timer).callsAfter
        (scheduler.ledger.callsStarted timer.name timer.registration.serial) := by
    rw [Timer.name, same, ← Timer.name, named]
    exact callsStarted_follow (scheduler.isOf_course horizon) single horizon
  have parts : scheduler.course later timer = (scheduler.course horizon timer).andThen
      ((scheduler.course horizon timer).timer.advance later
        ((scheduler.course horizon timer).callsAfter
          (scheduler.ledger.callsStarted timer.name timer.registration.serial))) :=
    Timer.advance_of_le le
  rw [parts, ← calls]
  rfl

theorem runsOf_andThen {timer : Timer} {first second : Timer.Course}
    (same : first.timer.registration = timer.registration) :
    runsOf timer (first.andThen second) = runsOf timer first ++ runsOf first.timer second := by
  simp only [runsOf, Timer.Course.andThen, List.map_append, same]

/-- Time passes in two parts as it passes at once: for no name is there a difference. -/
theorem mirrors_advanceTo (names_nodup : (scheduler.polled.map (·.options.name)).Nodup)
    {horizon later : Nat} (le : horizon ≤ later) :
    Mirrors some name ((scheduler.advanceTo horizon).advanceTo later)
      (scheduler.advanceTo later) := by
  have timers (scheduler : Scheduler) (horizon : Nat) :
      (scheduler.advanceTo horizon).timersOf name =
        (scheduler.timersOf name).map fun timer => (scheduler.course horizon timer).timer :=
    timersOf_follow (scheduler.isOf_course horizon) horizon
  have record (scheduler : Scheduler) (horizon : Nat) :
      (scheduler.advanceTo horizon).ledger.recordOf name = scheduler.ledger.recordOf name ++
        (scheduler.timersOf name).flatMap fun timer =>
          runsOf timer (scheduler.course horizon timer) :=
    recordOf_follow (scheduler.isOf_course horizon) horizon
  have cached (scheduler : Scheduler) (horizon : Nat) :
      (scheduler.advanceTo horizon).cached name =
        (Delivery.last? (·.name == name) (scheduler.deliveriesOf (scheduler.course horizon)) <|>
          scheduler.cached name) :=
    cached_follow scheduler name horizon _
  refine ⟨fun _ => Option.some_inj, rfl, rfl, ?_, ?_, ?_⟩
  · rw [timers, timers, timers]
    rcases timersOf_eq names_nodup name with none | ⟨timer, single⟩
    · simp [none]
    · simp [single, course_of_le single le, Timer.Course.andThen]
  · rw [cached, cached, cached, last?_deliveriesOf, last?_deliveriesOf, last?_deliveriesOf, timers]
    rcases timersOf_eq names_nodup name with none | ⟨timer, single⟩
    · simp [none]
    · simp [single, course_of_le single le, Timer.Course.andThen, Option.map_or, Option.or_assoc]
  · rw [record, record, record, timers]
    rcases timersOf_eq names_nodup name with none | ⟨timer, single⟩
    · simp [none]
    · have same := (scheduler.isOf_course horizon timer).registration
      simp [single, course_of_le single le, runsOf_andThen same]

theorem mirrors_advance_add (names_nodup : (scheduler.polled.map (·.options.name)).Nodup)
    (first second : Nat) :
    Mirrors some name ((scheduler.advance first).advance second)
      (scheduler.advance (first + second)) := by
  have sameEnd : scheduler.now + (first + second) = scheduler.now + first + second :=
    (Nat.add_assoc _ _ _).symm
  rw [advance, advance, advance, sameEnd]
  exact mirrors_advanceTo names_nodup (Nat.le_add_right _ _)

end Scheduler

end Vitals
