import Vitals.Proofs.Polling.Regularity

/-!
# The pace of a registration

What the regularity of one timer means for the record of executions. Whatever else happens to a
scheduler, the executions on record for a registration are those of its timer, in their order and
none of them cancelled, for as long as the timer is not taken away.
-/

namespace Vitals

namespace Scheduler

variable {scheduler : Scheduler} {registration : Registration} {first period : Nat}

/-- The actions in which time passes. -/
def Action.takesTime : Action → Bool
  | .advance _ => true
  | .pass _ _ => true
  | _ => false

/-- Where no time passes, a timer stays as it is, or it is new. -/
theorem mem_timers_step {action : Action} (still : action.takesTime = false) {timer : Timer}
    (timer_mem : timer ∈ (scheduler.step action).timers) :
    (timer ∈ scheduler.timers ∧ action.removes timer.name = false) ∨
      ∃ options probe, action = .start options probe ∧
        timer.registration = scheduler.ledger.registration options probe := by
  cases action with
  | start options probe =>
      rw [step, timers_launch] at timer_mem
      rcases List.mem_append.mp timer_mem with kept | new
      · rcases List.mem_filter.mp kept with ⟨old, unlike⟩
        rw [bne_iff_ne, ne_comm] at unlike
        exact Or.inl ⟨old, by simpa [Action.removes] using unlike⟩
      · rcases Option.map_eq_some_iff.mp (Option.mem_toList.mp new) with ⟨period, -, rfl⟩
        exact Or.inr ⟨options, probe, rfl, rfl⟩
  | stop name =>
      rcases List.mem_filter.mp timer_mem with ⟨old, unlike⟩
      rw [bne_iff_ne, ne_comm] at unlike
      exact Or.inl ⟨old, by simpa [Action.removes] using unlike⟩
  | stopAll => exact absurd timer_mem List.not_mem_nil
  | drop => exact absurd timer_mem List.not_mem_nil
  | inquire inquiry => exact Or.inl ⟨timer_mem, rfl⟩
  | abandon ticket => exact Or.inl ⟨timer_mem, rfl⟩
  | advance milliseconds => cases still
  | pass milliseconds turns => cases still

theorem now_step {action : Action} (still : action.takesTime = false) :
    (scheduler.step action).now = scheduler.now := by
  cases action with
  | start options probe =>
      rw [step, now, ledger_launch]
      rfl
  | advance milliseconds => cases still
  | pass milliseconds turns => cases still
  | _ => rfl

/-- What is on record for a timer stays untouched as long as no time passes and the timer is not
taken away. -/
theorem ticksOf_step_of_kept {action : Action} (still : action.takesTime = false) {name : String}
    (kept : action.removes name = false) (serial : Nat) :
    (scheduler.step action).ledger.ticksOf name serial =
      scheduler.ledger.ticksOf name serial := by
  cases action with
  | start options probe =>
      have unlike : options.name ≠ name := by simpa [Action.removes] using kept
      rw [step, ledger_launch]
      apply Ledger.ticksOf_cancel_of_foreign
      intro run _ named
      simp [named, Ne.symm unlike]
  | stop other =>
      have unlike : other ≠ name := by simpa [Action.removes] using kept
      apply Ledger.ticksOf_cancel_of_foreign
      intro run _ named
      simp [named, Ne.symm unlike]
  | stopAll => cases kept
  | drop => cases kept
  | inquire inquiry =>
      apply Ledger.filter_runs_record
      intro run run_mem
      rcases List.mem_map.mp run_mem with ⟨entry, _, rfl⟩
      simp [Run.isTickOf]
  | abandon ticket =>
      apply Ledger.ticksOf_cancel_of_foreign
      intro run owned _
      simp [owned]
  | advance milliseconds => cases still
  | pass milliseconds turns => cases still

/-- The executions on record for a registration are the ticks that its timer has answered, and the
timer is on time. -/
structure Answers (scheduler : Scheduler) (registration : Registration) (first period : Nat)
    (timer : Timer) (ticks : List Tick) : Prop where
  timer_mem : timer ∈ scheduler.timers
  registration_eq : timer.registration = registration
  period_eq : timer.period = period
  recorded : scheduler.ledger.ticksOf registration.options.name registration.serial =
    ticks.map registration.tickRun
  onTime : timer.OnTime first scheduler.now ticks

theorem Answers.pass {timer : Timer} {ticks : List Tick}
    (answers : scheduler.Answers registration first period timer ticks)
    (orderly : scheduler.Orderly) (milliseconds : Nat) (turns : String → Nat) :
    let course := scheduler.courseWithin (scheduler.now + milliseconds) turns timer
    (scheduler.pass milliseconds turns).Answers registration first period course.timer
      (ticks ++ course.started) := by
  intro course
  have isOf (other : Timer) : (scheduler.courseWithin (scheduler.now + milliseconds) turns
      other).IsOf other := Timer.Course.isOf_proceed _ _ _ other
  have added := ticksOf_follow orderly.names_nodup isOf answers.timer_mem
    (scheduler.now + milliseconds)
  rw [Timer.name, answers.registration_eq, answers.recorded, ← List.map_append] at added
  refine ⟨?_, (isOf timer).registration.trans answers.registration_eq,
    (isOf timer).period.trans answers.period_eq, added,
    (answers.onTime.of_le (Nat.le_add_right _ milliseconds)).proceed _ _⟩
  simp only [Scheduler.pass, follow, List.map_map]
  exact List.mem_map.mpr ⟨timer, answers.timer_mem, rfl⟩

theorem Answers.advance {timer : Timer} {ticks : List Tick}
    (answers : scheduler.Answers registration first period timer ticks)
    (orderly : scheduler.Orderly) (milliseconds : Nat) :
    let course := scheduler.course (scheduler.now + milliseconds) timer
    (scheduler.advance milliseconds).Answers registration first period course.timer
      (ticks ++ course.started) := by
  have passed := answers.pass orderly milliseconds
    fun _ => scheduler.workload (scheduler.now + milliseconds)
  rw [courseWithin_workload answers.timer_mem, ← advance_eq_pass] at passed
  exact passed

/-- The timer of a registration, if it runs, is on time. -/
def OnTime (scheduler : Scheduler) (registration : Registration) (first period : Nat) : Prop :=
  ∀ timer ∈ scheduler.timers, timer.registration = registration →
    ∃ ticks, scheduler.Answers registration first period timer ticks

namespace OnTime

/-- A timer that is started has answered no tick. -/
theorem launch (orderly : scheduler.Orderly) (options : Options) (probe : Probe)
    (interval : options.interval = some period) :
    (scheduler.step (.start options probe)).OnTime (scheduler.ledger.registration options probe)
      (Schedule.firstTick 1000 scheduler.now period) period := by
  intro timer timer_mem registered
  have started : timer = .start scheduler.now period
      (scheduler.ledger.registration options probe) := by
    rw [Scheduler.step, timers_launch, interval] at timer_mem
    rcases List.mem_append.mp timer_mem with old | new
    · have named : timer.name = options.name := by
        rw [Timer.name, registered]
        rfl
      have unlike := (List.mem_filter.mp old).2
      simp [named] at unlike
    · exact List.mem_singleton.mp new
  have unticked : (scheduler.step (.start options probe)).ledger.ticksOf options.name
      (scheduler.ledger.registration options probe).serial = [] := by
    rw [step, ledger_launch, Ledger.ticksOf_cancel]
    exact List.map_eq_nil_iff.mpr (orderly.ticksOf_registration options probe)
  refine ⟨[], timer_mem, registered, by rw [started]; rfl, unticked, ?_⟩
  rw [started, now_step rfl]
  exact Timer.onTime_start scheduler.now period _

theorem pass (onTime : scheduler.OnTime registration first period) (orderly : scheduler.Orderly)
    (milliseconds : Nat) (turns : String → Nat) :
    (scheduler.pass milliseconds turns).OnTime registration first period := by
  intro next next_mem registered
  simp only [Scheduler.pass, follow, List.map_map] at next_mem
  rcases List.mem_map.mp next_mem with ⟨timer, timer_mem, rfl⟩
  have isOf : (scheduler.courseWithin (scheduler.now + milliseconds) turns timer).IsOf timer :=
    Timer.Course.isOf_proceed _ _ _ timer
  rcases onTime timer timer_mem (isOf.registration.symm.trans registered) with ⟨ticks, answers⟩
  exact ⟨_, answers.pass orderly milliseconds turns⟩

theorem step (onTime : scheduler.OnTime registration first period) (orderly : scheduler.Orderly)
    (issued : registration.serial < scheduler.ledger.issued.count registration.options.name)
    (action : Action) : (scheduler.step action).OnTime registration first period := by
  have still_step (still : action.takesTime = false) :
      (scheduler.step action).OnTime registration first period := by
    intro timer timer_mem registered
    rcases mem_timers_step still timer_mem with ⟨old, kept⟩ | ⟨options, probe, -, new⟩
    · rcases onTime timer old registered with ⟨ticks, answers⟩
      have untouched := @ticksOf_step_of_kept scheduler action still timer.name kept
        registration.serial
      rw [Timer.name, registered] at untouched
      refine ⟨ticks, timer_mem, registered, answers.period_eq,
        untouched.trans answers.recorded, ?_⟩
      rw [now_step still]
      exact answers.onTime
    -- The number of a registration that is new lies behind those that were given.
    · rw [← registered, new] at issued
      exact absurd issued (Nat.lt_irrefl _)
  cases action with
  | advance milliseconds =>
      rw [Scheduler.step, advance_eq_pass]
      exact onTime.pass orderly milliseconds _
  | pass milliseconds turns => exact onTime.pass orderly milliseconds turns
  | _ => exact still_step rfl

theorem run (onTime : scheduler.OnTime registration first period) (orderly : scheduler.Orderly)
    (issued : registration.serial < scheduler.ledger.issued.count registration.options.name)
    (actions : List Action) : (scheduler.run actions).OnTime registration first period := by
  induction actions generalizing scheduler with
  | nil => exact onTime
  | cons action rest ih =>
      apply ih (onTime.step orderly issued action) (orderly.step action)
      rw [count_issued_step]
      exact Nat.lt_of_lt_of_le issued (Nat.le_add_right _ _)

end OnTime

/-- The executions that the timer of a registration has started: they are on record, the first one
answers a given tick, none starts before its tick, and none before the one before has ended. -/
structure PollsInTurn (scheduler : Scheduler) (registration : Registration) (first : Nat)
    (ticks : List Tick) : Prop where
  recorded : scheduler.ledger.ticksOf registration.options.name registration.serial =
    ticks.map registration.tickRun
  begins : ∀ tick ∈ ticks.head?, tick.due = first
  due_le : ∀ tick ∈ ticks, tick.due ≤ tick.execution.startedAt
  apart : ticks.Pairwise fun earlier later =>
    earlier.execution.endsAt ≤ later.execution.startedAt

/-- The executions that the timer of a registration has started answer points of the grid, no more
of them than there are, and the timer goes on. -/
structure PollsRegularly (scheduler : Scheduler) (registration : Registration)
    (first period : Nat) (ticks : List Tick) : Prop
    extends scheduler.PollsInTurn registration first ticks where
  grid : ∃ indices : List Nat, indices.Pairwise (· < ·) ∧
    ticks.map (·.due) = indices.map fun index => first + index * period
  bounded : ∀ instant, ticks.countP (·.execution.startedAt ≤ instant) ≤
    (instant + period - first) / period
  punctual : (∀ tick ∈ ticks, tick.execution.elapsed ≤ period) →
    ticks.map (·.execution.startedAt) =
      (List.range ticks.length).map fun index => first + index * period
  alive : ∃ timer ∈ scheduler.timers, timer.registration = registration ∧
    (timer.running = none → timer.due ≤ scheduler.now + period) ∧
    ∀ execution, timer.running = some execution →
      execution.endsAt ≤ scheduler.now + registration.options.timeout

theorem Answers.pollsInTurn {timer : Timer} {ticks : List Tick}
    (answers : scheduler.Answers registration first period timer ticks) :
    scheduler.PollsInTurn registration first ticks where
  recorded := answers.recorded
  begins := by
    intro tick tick_mem
    have begins := answers.onTime.begins
    rw [Option.mem_def.mp tick_mem] at begins
    exact begins
  due_le := answers.onTime.due_le
  apart := answers.onTime.apart

theorem Answers.pollsRegularly {timer : Timer} {ticks : List Tick}
    (answers : scheduler.Answers registration first period timer ticks) (period_pos : 0 < period) :
    scheduler.PollsRegularly registration first period ticks := by
  have inTurn := answers.pollsInTurn
  rcases answers with ⟨timer_mem, rfl, rfl, -, onTime⟩
  rcases onTime.grid with ⟨indices, next, increasing, -, dues, -⟩
  refine ⟨inTurn, ⟨indices, increasing, dues⟩, onTime.countP_startedAt_le period_pos,
    fun short => (onTime.punctual short).1, timer, timer_mem, rfl, ?_, ?_⟩
  · intro idle
    exact Nat.le_trans (onTime.soon idle) (Nat.add_le_add_right onTime.idleSince_le _)
  · intro execution running
    rcases onTime.runs execution running with ⟨-, earlier, due, split⟩
    have tick_mem : ⟨due, execution⟩ ∈ ticks := by simp [split]
    have elapsed := execution.elapsed_le_timeout
    rw [onTime.options _ tick_mem] at elapsed
    exact Nat.add_le_add (onTime.reached _ tick_mem) elapsed

/-- The timer that a registration was given at the instant `start`, now and as time goes on. Its
executions wait for their ticks and for each other in any case. Up to an instant in reach they
answer the grid of the period, which begins one period after the start. -/
structure KeepsPace (scheduler : Scheduler) (registration : Registration) (start period : Nat) :
    Prop where
  inTurn : ∃ ticks, scheduler.PollsInTurn registration (Schedule.firstTick 1000 start period) ticks
  regular : Schedule.inReach period scheduler.now = true →
    ∃ ticks, scheduler.PollsRegularly registration (start + period) period ticks
  /-- Where all turns are taken, no tick is left out by executions that take a period at most. -/
  complete : ∀ milliseconds, Schedule.inReach period (scheduler.now + milliseconds) = true →
    ∃ ticks, (scheduler.advance milliseconds).PollsRegularly registration (start + period) period
        ticks ∧
      ((∀ tick ∈ ticks, tick.execution.elapsed ≤ period) →
        ticks.length = (scheduler.now + milliseconds - start) / period)
  /-- Whatever the probe does, its timer starts another execution. -/
  goes_on :
    let wait := max registration.options.timeout period
    let later := scheduler.advance wait
    Schedule.inReach period (scheduler.now + wait) = true →
      (scheduler.ledger.ticksOf registration.options.name registration.serial).length <
        (later.ledger.ticksOf registration.options.name registration.serial).length

theorem Answers.keepsPace {timer : Timer} {ticks : List Tick} {start : Nat}
    (answers : scheduler.Answers registration (Schedule.firstTick 1000 start period) period timer
      ticks)
    (orderly : scheduler.Orderly) (period_pos : 0 < period) (started : start ≤ scheduler.now) :
    scheduler.KeepsPace registration start period := by
  have first_eq {later : Nat} (le : start ≤ later)
      (reaches : Schedule.inReach period later = true) :
      Schedule.firstTick 1000 start period = start + period :=
    Schedule.firstTick_of_tells (Schedule.tells_of_inReach (Schedule.inReach_of_le le reaches))
  refine ⟨⟨ticks, answers.pollsInTurn⟩, ?_, ?_, ?_⟩
  · intro reaches
    rw [← first_eq started reaches]
    exact ⟨ticks, answers.pollsRegularly period_pos⟩
  · intro milliseconds reaches
    have first := first_eq (Nat.le_add_right_of_le started) reaches
    have advanced := answers.advance orderly milliseconds
    refine ⟨_, first ▸ advanced.pollsRegularly period_pos, ?_⟩
    intro short
    have settled := Timer.not_hasTurn_advance (scheduler.now + milliseconds)
      (scheduler.ledger.callsStarted timer.name timer.registration.serial) timer
    rw [← advanced.period_eq] at period_pos short
    rw [advanced.onTime.length_eq period_pos settled short, advanced.period_eq, first,
      Nat.add_sub_add_right]
    rfl
  · intro wait later _
    rw [(answers.advance orderly _).recorded, answers.recorded, List.map_append,
      List.length_append]
    apply Nat.lt_add_of_pos_right
    rw [List.length_map]
    apply List.length_pos_of_ne_nil
    rcases answers with ⟨-, rfl, rfl, -, onTime⟩
    exact onTime.started_ne_nil period_pos _

/-- A registration keeps the pace of its interval from its start on, as long as its timer runs. -/
theorem Orderly.keepsPace (orderly : scheduler.Orderly) {options : Options} {probe : Probe}
    (interval : options.interval = some period) (period_pos : 0 < period) {after : List Action}
    (polled : scheduler.ledger.registration options probe ∈
      (scheduler.run (.start options probe :: after)).polled) :
    (scheduler.run (.start options probe :: after)).KeepsPace
      (scheduler.ledger.registration options probe) scheduler.now period := by
  have issued : (scheduler.ledger.registration options probe).serial <
      (scheduler.step (.start options probe)).ledger.issued.count options.name := by
    rw [count_issued_step]
    simp [Ledger.registration]
  have onTime := (OnTime.launch orderly options probe interval).run
    (orderly.step (.start options probe)) issued after
  rcases mem_polled.mp polled with ⟨timer, timer_mem, registered⟩
  rcases onTime timer timer_mem registered with ⟨ticks, answers⟩
  exact answers.keepsPace (orderly.run (.start options probe :: after)) period_pos
    (scheduler.now_le_run (.start options probe :: after))

end Scheduler

end Vitals
