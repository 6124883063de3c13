import Vitals.Proofs.Polling.Runs

/-!
# What the operations of a scheduler do

For each operation, one equation for each part of the state: the registrations whose timers run,
the cached results, and the record of executions. Later proofs cite these and open no definition
of an operation.
-/

namespace Vitals

namespace Ledger

variable (ledger : Ledger) (name : String) (runs : List Run) (concerns : Run → Bool)

@[simp]
theorem runs_record : (ledger.record runs).runs = ledger.runs ++ runs := rfl

@[simp]
theorem issued_cancel : (ledger.cancel concerns).issued = ledger.issued := rfl

theorem count_issued_issue (other : String) :
    (ledger.issue name).issued.count other =
      ledger.issued.count other + if other = name then 1 else 0 := by
  by_cases same : other = name
  · subst same
    simp [issue, List.count_append]
  · have absent : other ∉ [name] := by simpa using same
    simp [issue, List.count_append, same, List.count_eq_zero_of_not_mem absent]

/-- What becomes of a record when the executions that have a property are cancelled. -/
def strike (run : Run) : Run :=
  if run.isOpen ledger.now && concerns run then { run with cancelledAt := some ledger.now }
  else run

theorem runs_cancel :
    (ledger.cancel concerns).runs = ledger.runs.map (ledger.strike concerns) := rfl

/-- Executions without a property are not noticed among those that have it. -/
theorem filter_runs_record {concerned : Run → Bool}
    (foreign : ∀ run ∈ runs, concerned run = false) :
    (ledger.record runs).runs.filter concerned = ledger.runs.filter concerned := by
  have none_added : runs.filter concerned = [] := by
    rw [List.filter_eq_nil_iff]
    intro run run_mem
    simp [foreign run run_mem]
  rw [runs_record, List.filter_append, none_added, List.append_nil]

/-- A property that cancelling does not touch picks out the same executions as before. -/
theorem filter_runs_cancel {concerned : Run → Bool}
    (kept : ∀ run, concerned (ledger.strike concerns run) = concerned run) :
    (ledger.cancel concerns).runs.filter concerned =
      (ledger.runs.filter concerned).map (ledger.strike concerns) := by
  simp only [runs_cancel, List.filter_map, Function.comp_def, kept]

/-- Where cancelling touches none of the executions that have a property, they stay as they are. -/
theorem filter_runs_cancel_of_untouched {concerned : Run → Bool}
    (kept : ∀ run, concerned (ledger.strike concerns run) = concerned run)
    (untouched : ∀ run ∈ ledger.runs.filter concerned, ledger.strike concerns run = run) :
    (ledger.cancel concerns).runs.filter concerned = ledger.runs.filter concerned := by
  calc (ledger.cancel concerns).runs.filter concerned
      = (ledger.runs.filter concerned).map (ledger.strike concerns) :=
        ledger.filter_runs_cancel concerns kept
    _ = (ledger.runs.filter concerned).map id := List.map_congr_left untouched
    _ = ledger.runs.filter concerned := List.map_id _

theorem strike_of_closed {run : Run} (closed : run.isOpen ledger.now = false) :
    ledger.strike concerns run = run := by
  simp [strike, closed]

/-- What is cancelled had not come to its own end. -/
theorem hasCompleted_strike (run : Run) :
    (ledger.strike concerns run).hasCompleted ledger.now = run.hasCompleted ledger.now := by
  unfold strike
  split
  · next struck =>
      have later : ¬run.execution.endsAt ≤ ledger.now := by
        simp only [Bool.and_eq_true, Run.isOpen, decide_eq_true_eq] at struck
        omega
      simp [Run.hasCompleted, later]
  · rfl

theorem execution_strike (run : Run) :
    (ledger.strike concerns run).execution = run.execution := by
  unfold strike
  split <;> rfl

theorem owner_strike (run : Run) : (ledger.strike concerns run).owner = run.owner := by
  unfold strike
  split <;> rfl

theorem strike_of_unconcerned {run : Run} (unconcerned : concerns run = false) :
    ledger.strike concerns run = run := by
  simp [strike, unconcerned]

theorem isOpen_strike {run : Run} (concerned : concerns run = true) :
    (ledger.strike concerns run).isOpen ledger.now = false := by
  unfold strike
  cases isOpen : run.isOpen ledger.now with
  | false => simpa using isOpen
  | true => simp [concerned, Run.isOpen]

end Ledger

namespace Scheduler

variable (scheduler : Scheduler) (name : String)

/-- The registrations whose timers run. -/
def polled : List Registration := scheduler.timers.map (·.registration)

theorem isPolling_eq_true :
    scheduler.isPolling name = true ↔
      ∃ registration ∈ scheduler.polled, registration.options.name = name := by
  simp only [isPolling, polled, List.any_eq_true, beq_iff_eq, Timer.name, List.mem_map]
  constructor
  · rintro ⟨timer, timer_mem, named⟩
    exact ⟨timer.registration, ⟨timer, timer_mem, rfl⟩, named⟩
  · rintro ⟨registration, ⟨timer, timer_mem, rfl⟩, named⟩
    exact ⟨timer, timer_mem, named⟩

theorem polled_halt :
    (scheduler.halt name).polled = scheduler.polled.filter (·.options.name != name) := by
  simp only [polled, halt, List.filter_map]
  rfl

@[simp]
theorem polled_stop :
    (scheduler.stop name).polled = scheduler.polled.filter (·.options.name != name) :=
  polled_halt scheduler name

@[simp]
theorem polled_stopAll : scheduler.stopAll.polled = [] := rfl

@[simp]
theorem polled_launch (options : Options) (probe : Probe) :
    (scheduler.launch options probe).polled =
      scheduler.polled.filter (·.options.name != options.name) ++
        if options.interval.isSome then [scheduler.ledger.registration options probe] else [] := by
  have halted := polled_halt { scheduler with ledger := scheduler.ledger.issue options.name }
    options.name
  cases interval : options.interval with
  | none =>
      simp only [launch, start, Ledger.registration, interval, Option.isSome_none,
        Bool.false_eq_true, if_false, List.append_nil]
      exact halted
  | some period =>
      simp only [polled, launch, start, Ledger.registration, interval, List.map_append] at halted ⊢
      rw [halted]
      rfl

theorem polled_follow {courseOf : Timer → Timer.Course}
    (isOf : ∀ timer, (courseOf timer).IsOf timer) (horizon : Nat) :
    (scheduler.follow horizon courseOf).polled = scheduler.polled := by
  simp only [polled, follow, List.map_map]
  apply List.map_congr_left
  intro timer _
  exact (isOf timer).registration

theorem ledger_stop :
    (scheduler.stop name).ledger =
      scheduler.ledger.cancel fun run => run.owner == .timer && run.name == name := rfl

theorem ledger_stopAll :
    scheduler.stopAll.ledger = scheduler.ledger.cancel (·.owner == .timer) := rfl

theorem ledger_drop : scheduler.drop.ledger = scheduler.ledger.cancel (·.owner == .timer) := rfl

theorem ledger_launch (options : Options) (probe : Probe) :
    (scheduler.launch options probe).ledger =
      (scheduler.ledger.issue options.name).cancel fun run =>
        run.owner == .timer && run.name == options.name := by
  cases interval : options.interval with
  | none =>
      simp only [launch, start, Ledger.registration, interval]
      rfl
  | some period =>
      simp only [launch, start, Ledger.registration, interval]
      rfl

theorem runs_follow (horizon : Nat) (courseOf : Timer → Timer.Course) :
    (scheduler.follow horizon courseOf).ledger.runs =
      scheduler.ledger.runs ++ scheduler.timers.flatMap fun timer =>
        runsOf timer (courseOf timer) := by
  simp only [follow, Ledger.record, List.flatMap_map]

/-- What a passage of time records, the timers have started for their registrations. -/
theorem mem_runs_follow {courseOf : Timer → Timer.Course} {run : Run}
    (isOf : ∀ timer, (courseOf timer).IsOf timer)
    (run_mem : run ∈ scheduler.timers.flatMap fun timer => runsOf timer (courseOf timer)) :
    run.owner = .timer ∧ ∃ registration ∈ scheduler.polled,
      run.name = registration.options.name ∧ run.serial = registration.serial := by
  rcases List.mem_flatMap.mp run_mem with ⟨timer, timer_mem, started⟩
  rcases List.mem_map.mp started with ⟨tick, tick_mem, rfl⟩
  refine ⟨rfl, timer.registration, List.mem_map_of_mem timer_mem, ?_, rfl⟩
  simp only [Run.name, (isOf timer).options tick tick_mem]

theorem mem_deliveriesOf {courseOf : Timer → Timer.Course} {delivery : Delivery}
    (delivery_mem : delivery ∈ scheduler.deliveriesOf courseOf) :
    delivery.registration ∈ scheduler.polled := by
  rcases List.mem_flatMap.mp delivery_mem with ⟨timer, timer_mem, ended⟩
  rcases List.mem_map.mp ended with ⟨execution, _, rfl⟩
  exact List.mem_map_of_mem timer_mem

theorem cached_stop (other : String) :
    (scheduler.stop name).cached other = if other = name then none else scheduler.cached other :=
  Named.get?_erase name other scheduler.latest

@[simp]
theorem cached_stopAll : scheduler.stopAll.cached name = none := rfl

theorem cached_launch (options : Options) (probe : Probe) (other : String) :
    (scheduler.launch options probe).cached other =
      if other = options.name ∧ options.interval = none then none else scheduler.cached other := by
  cases interval : options.interval with
  | none =>
      simp only [launch, start, Ledger.registration, interval, and_true]
      exact cached_stop _ options.name other
  | some period =>
      simp only [launch, start, Ledger.registration, interval, reduceCtorEq, and_false, if_false]
      rfl

theorem get?_keepLatest (latest : Named Result) (timer : Timer) (course : Timer.Course) :
    (keepLatest latest timer course).get? name =
      ((if timer.name = name then course.latest else none) <|> latest.get? name) := by
  unfold keepLatest
  cases course.latest with
  | none => simp
  | some result =>
      rw [Named.get?_insert]
      by_cases same : timer.name = name
      · simp [same]
      · simp [same, Ne.symm same]

theorem last?_deliveries_timer (timer : Timer) (course : Timer.Course) :
    Delivery.last? (·.name == name)
        (course.ended.map fun execution => ⟨timer.registration, execution⟩) =
      if timer.name = name then course.latest else none := by
  by_cases same : timer.name = name
  · subst same
    have all : (course.ended.map (Delivery.mk timer.registration)).filter
        (·.name == timer.name) = course.ended.map (Delivery.mk timer.registration) := by
      rw [List.filter_eq_self]
      intro delivery delivery_mem
      rcases List.mem_map.mp delivery_mem with ⟨execution, _, rfl⟩
      simp [Delivery.name, Timer.name]
    simp only [Delivery.last?, all, if_true, Timer.Course.latest, List.getLast?_map,
      Option.map_map]
    rfl
  · rw [if_neg same]
    apply Delivery.last?_eq_none
    intro delivery delivery_mem
    rcases List.mem_map.mp delivery_mem with ⟨execution, _, rfl⟩
    simpa [Delivery.name, Timer.name] using same

/-- After a passage of time the cached result of a name is the last one delivered under it. -/
theorem cached_follow (horizon : Nat) (courseOf : Timer → Timer.Course) :
    (scheduler.follow horizon courseOf).cached name =
      (Delivery.last? (·.name == name) (scheduler.deliveriesOf courseOf) <|>
        scheduler.cached name) := by
  simp only [cached, follow, List.foldl_map, deliveriesOf]
  generalize scheduler.latest = latest
  induction scheduler.timers generalizing latest with
  | nil => rfl
  | cons timer rest ih =>
      rw [List.foldl_cons, List.flatMap_cons, ih, get?_keepLatest, Delivery.last?_append,
        last?_deliveries_timer]
      simp only [Option.orElse_eq_orElse, Option.orElse_eq_or, Option.or_assoc]

namespace Passage

variable {scheduler} {next : Scheduler} {history : List Delivery}

theorem polled_eq (passage : scheduler.Passage next history) :
    next.polled = scheduler.polled := by
  rcases passage with ⟨milliseconds, courseOf, isOf⟩
  exact polled_follow scheduler isOf _

theorem cached_eq (passage : scheduler.Passage next history) (name : String) :
    next.cached name = (Delivery.last? (·.name == name) history <|> scheduler.cached name) := by
  rcases passage with ⟨milliseconds, courseOf, isOf⟩
  exact cached_follow scheduler name _ courseOf

theorem registration_mem (passage : scheduler.Passage next history) {delivery : Delivery}
    (delivery_mem : delivery ∈ history) : delivery.registration ∈ scheduler.polled := by
  rcases passage with ⟨milliseconds, courseOf, isOf⟩
  exact mem_deliveriesOf scheduler delivery_mem

end Passage

theorem polled_step (action : Action) :
    (scheduler.step action).polled =
      match action with
      | .start options probe =>
          scheduler.polled.filter (·.options.name != options.name) ++
            if options.interval.isSome then [scheduler.ledger.registration options probe] else []
      | .stop name => scheduler.polled.filter (·.options.name != name)
      | .stopAll => []
      | .drop => []
      | _ => scheduler.polled := by
  cases action with
  | start options probe => exact polled_launch scheduler options probe
  | stop name => exact polled_stop scheduler name
  | advance milliseconds => exact (scheduler.passage_advance milliseconds).polled_eq
  | pass milliseconds turns => exact (scheduler.passage_pass milliseconds turns).polled_eq
  | _ => rfl

/-- Only a timer delivers. -/
theorem registration_mem_of_stepDeliveries {action : Action} {delivery : Delivery}
    (delivery_mem : delivery ∈ scheduler.stepDeliveries action) :
    delivery.registration ∈ scheduler.polled := by
  cases action with
  | advance milliseconds =>
      exact (scheduler.passage_advance milliseconds).registration_mem delivery_mem
  | pass milliseconds turns =>
      exact (scheduler.passage_pass milliseconds turns).registration_mem delivery_mem
  | _ => exact absurd delivery_mem List.not_mem_nil

/-- The cached result of a name changes when something is delivered under it, and when it is
taken away. -/
theorem cached_step (action : Action) :
    (scheduler.step action).cached name =
      match action with
      | .start options _ =>
          if name = options.name ∧ options.interval = none then none else scheduler.cached name
      | .stop other => if name = other then none else scheduler.cached name
      | .stopAll => none
      | _ =>
          (Delivery.last? (·.name == name) (scheduler.stepDeliveries action) <|>
            scheduler.cached name) := by
  cases action with
  | start options probe => exact cached_launch scheduler options probe name
  | stop other => exact cached_stop scheduler other name
  | advance milliseconds => exact (scheduler.passage_advance milliseconds).cached_eq name
  | pass milliseconds turns => exact (scheduler.passage_pass milliseconds turns).cached_eq name
  | _ => rfl

/-- Whatever is cached was cached before or has been delivered since. -/
theorem cached_step_eq_some {action : Action} {result : Result}
    (cached : (scheduler.step action).cached name = some result) :
    scheduler.cached name = some result ∨
      ∃ delivery ∈ scheduler.stepDeliveries action,
        delivery.name = name ∧ delivery.result = result := by
  have kept {gone : Prop} [Decidable gone]
      (found : (if gone then none else scheduler.cached name) = some result) :
      scheduler.cached name = some result := by
    split at found
    · cases found
    · exact found
  have delivered (history : List Delivery)
      (found : (Delivery.last? (·.name == name) history <|> scheduler.cached name) =
        some result) :
      scheduler.cached name = some result ∨
        ∃ delivery ∈ history, delivery.name = name ∧ delivery.result = result := by
    cases last : Delivery.last? (·.name == name) history with
    | none =>
        rw [last] at found
        exact Or.inl found
    | some delivered =>
        rw [last] at found
        cases found
        exact Or.inr (Delivery.mem_of_last?_eq_some last)
  rw [cached_step] at cached
  cases action with
  | start options probe => exact Or.inl (kept cached)
  | stop other => exact Or.inl (kept cached)
  | stopAll => cases cached
  | _ => exact delivered _ cached

theorem cached_run_eq_some {actions : List Action} {result : Result}
    (cached : (scheduler.run actions).cached name = some result) :
    scheduler.cached name = some result ∨
      ∃ delivery ∈ scheduler.deliveries actions,
        delivery.name = name ∧ delivery.result = result := by
  induction actions generalizing scheduler with
  | nil => exact Or.inl cached
  | cons action rest ih =>
      rcases ih (scheduler.step action) cached with atOnce | ⟨delivery, delivery_mem, delivered⟩
      · rcases scheduler.cached_step_eq_some name atOnce with
          earlier | ⟨delivery, delivery_mem, delivered⟩
        · exact Or.inl earlier
        · exact Or.inr ⟨delivery, List.mem_append_left _ delivery_mem, delivered⟩
      · exact Or.inr ⟨delivery, List.mem_append_right _ delivery_mem, delivered⟩

/-- The clock never goes back. -/
theorem now_le_step (action : Action) : scheduler.now ≤ (scheduler.step action).now := by
  cases action with
  | start options probe =>
      rw [step, now, now, ledger_launch]
      exact Nat.le_refl _
  | advance milliseconds => exact Nat.le_add_right _ _
  | pass milliseconds turns => exact Nat.le_add_right _ _
  | _ => exact Nat.le_refl _

theorem now_le_run (scheduler : Scheduler) (actions : List Action) :
    scheduler.now ≤ (scheduler.run actions).now :=
  run_induction (scheduler.now ≤ ·.now) (Nat.le_refl _)
    (fun _ action still => Nat.le_trans still (now_le_step _ action)) actions

theorem count_issued_step (action : Action) :
    (scheduler.step action).ledger.issued.count name =
      scheduler.ledger.issued.count name +
        match action with
        | .start options _ => if name = options.name then 1 else 0
        | _ => 0 := by
  cases action with
  | start options probe =>
      rw [step, ledger_launch, Ledger.issued_cancel, Ledger.count_issued_issue]
  | _ => rfl

end Scheduler

end Vitals
