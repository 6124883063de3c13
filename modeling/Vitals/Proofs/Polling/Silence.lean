import Vitals.Proofs.Polling.Effects

/-!
# Silence of a removed timer

A registration is known by its name and its number, and no other registration of the name ever has
that number. Once its timer is gone and the calls that the timer had started are over or cancelled,
no later action can bring back either: a later timer of the same name belongs to a later number.
`Silenced` says this of one state; every step keeps it, starts no call for the registration, and
delivers nothing from it.
-/

namespace Vitals

namespace Run

/-- The timer of a registration started the execution. -/
def isTickOf (name : String) (serial : Nat) (run : Run) : Bool :=
  run.owner == .timer && run.isOf name serial

theorem isTickOf_iff {name : String} {serial : Nat} {run : Run} :
    run.isTickOf name serial = true ↔
      run.owner = .timer ∧ run.name = name ∧ run.serial = serial := by
  simp [isTickOf, isOf]

/-- What is over stays over. -/
theorem isOpen_of_le {run : Run} {now later : Nat} (le : now ≤ later)
    (closed : run.isOpen now = false) : run.isOpen later = false := by
  simp only [isOpen, Bool.and_eq_false_iff, decide_eq_false_iff_not, Nat.not_lt] at closed ⊢
  rcases closed with cancelled | ended
  · exact Or.inl cancelled
  · exact Or.inr (Nat.le_trans ended le)

/-- A call that is not under way will not come to its own end any more. -/
theorem hasCompleted_of_le {run : Run} {now later : Nat} (le : now ≤ later)
    (closed : run.isOpen now = false) : run.hasCompleted later = run.hasCompleted now := by
  simp only [isOpen, Bool.and_eq_false_iff, decide_eq_false_iff_not, Nat.not_lt] at closed
  rcases closed with cancelled | ended
  · simp [hasCompleted, cancelled]
  · simp [hasCompleted, ended, Nat.le_trans ended le]

end Run

namespace Ledger

/-- The executions that the timer of a registration started. -/
def ticksOf (ledger : Ledger) (name : String) (serial : Nat) : List Run :=
  ledger.runs.filter (·.isTickOf name serial)

theorem isTickOf_strike (ledger : Ledger) (concerns : Run → Bool) (name : String) (serial : Nat)
    (run : Run) : (ledger.strike concerns run).isTickOf name serial = run.isTickOf name serial := by
  unfold strike
  split <;> rfl

theorem ticksOf_cancel (ledger : Ledger) (concerns : Run → Bool) (name : String) (serial : Nat) :
    (ledger.cancel concerns).ticksOf name serial =
      (ledger.ticksOf name serial).map (ledger.strike concerns) :=
  ledger.filter_runs_cancel concerns (ledger.isTickOf_strike concerns name serial)

/-- To cancel what is under way leaves alone what is not. -/
theorem ticksOf_cancel_of_closed (ledger : Ledger) (concerns : Run → Bool) (name : String)
    (serial : Nat)
    (closed : ∀ run ∈ ledger.ticksOf name serial, run.isOpen ledger.now = false) :
    (ledger.cancel concerns).ticksOf name serial = ledger.ticksOf name serial := by
  apply ledger.filter_runs_cancel_of_untouched concerns
    (ledger.isTickOf_strike concerns name serial)
  intro run run_mem
  exact ledger.strike_of_closed concerns (closed run run_mem)

theorem ticksOf_cancel_of_foreign (ledger : Ledger) {concerns : Run → Bool} {name : String}
    {serial : Nat}
    (foreign : ∀ run : Run, run.owner = .timer → run.name = name → concerns run = false) :
    (ledger.cancel concerns).ticksOf name serial = ledger.ticksOf name serial := by
  apply ledger.filter_runs_cancel_of_untouched concerns
    (ledger.isTickOf_strike concerns name serial)
  intro run run_mem
  have tick := Run.isTickOf_iff.mp (List.mem_filter.mp run_mem).2
  exact ledger.strike_of_unconcerned concerns (foreign run tick.1 tick.2.1)

end Ledger

namespace Scheduler

/-- A registration has no timer any more, and nothing that its timer started is under way. -/
structure Silenced (scheduler : Scheduler) (name : String) (serial : Nat) : Prop where
  issued : serial < scheduler.ledger.issued.count name
  unpolled : ∀ registration ∈ scheduler.polled,
    registration.options.name = name → registration.serial ≠ serial
  closed : ∀ run ∈ scheduler.ledger.ticksOf name serial, run.isOpen scheduler.now = false

namespace Silenced

variable {scheduler : Scheduler} {name : String} {serial : Nat}

theorem ticksOf_passage (silenced : scheduler.Silenced name serial) {next : Scheduler}
    {history : List Delivery} (passage : scheduler.Passage next history) :
    next.ledger.ticksOf name serial = scheduler.ledger.ticksOf name serial := by
  rcases passage with ⟨milliseconds, courseOf, isOf⟩
  simp only [Ledger.ticksOf, runs_follow, List.filter_append, List.append_right_eq_self,
    List.filter_eq_nil_iff]
  intro run run_mem
  rcases scheduler.mem_runs_follow isOf run_mem with
    ⟨_, registration, registration_mem, sameName, sameSerial⟩
  rw [Run.isTickOf_iff, sameName, sameSerial]
  rintro ⟨_, named, numbered⟩
  exact silenced.unpolled registration registration_mem named numbered

/-- No step starts a call for a silenced registration, and none touches those on record. -/
theorem ticksOf_step (silenced : scheduler.Silenced name serial) (action : Action) :
    (scheduler.step action).ledger.ticksOf name serial =
      scheduler.ledger.ticksOf name serial := by
  have cancel (concerns : Run → Bool) :
      (scheduler.ledger.cancel concerns).ticksOf name serial =
        scheduler.ledger.ticksOf name serial :=
    Ledger.ticksOf_cancel_of_closed _ concerns _ _ silenced.closed
  cases action with
  | start options probe =>
      rw [step, ledger_launch]
      exact Ledger.ticksOf_cancel_of_closed _ _ _ _ silenced.closed
  | stop other => exact cancel _
  | stopAll => exact cancel _
  | drop => exact cancel _
  | inquire inquiry =>
      apply Ledger.filter_runs_record
      intro run run_mem
      rcases List.mem_map.mp run_mem with ⟨entry, _, rfl⟩
      simp [Run.isTickOf]
  | abandon ticket => exact cancel _
  | advance milliseconds => exact silenced.ticksOf_passage (scheduler.passage_advance milliseconds)
  | pass milliseconds turns =>
      exact silenced.ticksOf_passage (scheduler.passage_pass milliseconds turns)

/-- A timer that a step starts belongs to a number that was not given before. -/
theorem unpolled_step (silenced : scheduler.Silenced name serial) (action : Action) :
    ∀ registration ∈ (scheduler.step action).polled,
      registration.options.name = name → registration.serial ≠ serial := by
  intro registration registration_mem named
  rw [polled_step] at registration_mem
  cases action with
  | start options probe =>
      rcases List.mem_append.mp registration_mem with old | new
      · exact silenced.unpolled registration (List.mem_filter.mp old).1 named
      · split at new
        · rw [List.mem_singleton] at new
          subst new
          have numbered : (scheduler.ledger.registration options probe).serial =
              scheduler.ledger.issued.count name := by
            rw [← named]
            rfl
          have := silenced.issued
          omega
        · exact absurd new List.not_mem_nil
  | stop other => exact silenced.unpolled registration (List.mem_filter.mp registration_mem).1 named
  | stopAll => exact absurd registration_mem List.not_mem_nil
  | drop => exact absurd registration_mem List.not_mem_nil
  | _ => exact silenced.unpolled registration registration_mem named

theorem step (silenced : scheduler.Silenced name serial) (action : Action) :
    (scheduler.step action).Silenced name serial where
  issued := by
    rw [count_issued_step]
    exact Nat.lt_of_lt_of_le silenced.issued (Nat.le_add_right _ _)
  unpolled := silenced.unpolled_step action
  closed := by
    rw [silenced.ticksOf_step action]
    intro run run_mem
    exact Run.isOpen_of_le (scheduler.now_le_step action) (silenced.closed run run_mem)

theorem run (silenced : scheduler.Silenced name serial) (actions : List Action) :
    (scheduler.run actions).Silenced name serial :=
  run_induction (·.Silenced name serial) silenced (fun _ action still => still.step action) actions

theorem ticksOf_run (silenced : scheduler.Silenced name serial) (actions : List Action) :
    (scheduler.run actions).ledger.ticksOf name serial =
      scheduler.ledger.ticksOf name serial := by
  induction actions generalizing scheduler with
  | nil => rfl
  | cons action rest ih =>
      rw [run_cons, ih (silenced.step action), silenced.ticksOf_step action]

theorem completed_run (silenced : scheduler.Silenced name serial) (actions : List Action) :
    (scheduler.ledger.ticksOf name serial).map (·.hasCompleted (scheduler.run actions).now) =
      (scheduler.ledger.ticksOf name serial).map (·.hasCompleted scheduler.now) := by
  apply List.map_congr_left
  intro run run_mem
  exact Run.hasCompleted_of_le (scheduler.now_le_run actions) (silenced.closed run run_mem)

theorem deliveries_run (silenced : scheduler.Silenced name serial) (actions : List Action) :
    ∀ delivery ∈ scheduler.deliveries actions, delivery.isOf name serial = false := by
  induction actions generalizing scheduler with
  | nil => simp [deliveries]
  | cons action rest ih =>
      intro delivery delivery_mem
      rcases List.mem_append.mp delivery_mem with now | later
      · have registration_mem := scheduler.registration_mem_of_stepDeliveries now
        have unlike := silenced.unpolled delivery.registration registration_mem
        simpa [Delivery.isOf, Delivery.name] using unlike
      · exact ih (silenced.step action) delivery later

end Silenced

/-- Every registration whose timer runs has a number that was given. -/
def Numbered (scheduler : Scheduler) : Prop :=
  ∀ registration ∈ scheduler.polled,
    registration.serial < scheduler.ledger.issued.count registration.options.name

theorem numbered_startingAt (now : Nat) : (startingAt now).Numbered :=
  fun _ registration_mem => absurd registration_mem List.not_mem_nil

theorem Numbered.step {scheduler : Scheduler} (numbered : scheduler.Numbered) (action : Action) :
    (scheduler.step action).Numbered := by
  intro registration registration_mem
  rw [count_issued_step]
  rw [polled_step] at registration_mem
  have kept (still : registration ∈ scheduler.polled) (more : Nat) :
      registration.serial <
        scheduler.ledger.issued.count registration.options.name + more :=
    Nat.lt_of_lt_of_le (numbered registration still) (Nat.le_add_right _ _)
  cases action with
  | start options probe =>
      rcases List.mem_append.mp registration_mem with old | new
      · exact kept (List.mem_filter.mp old).1 _
      · split at new
        · rw [List.mem_singleton] at new
          subst new
          simp [Ledger.registration]
        · exact absurd new List.not_mem_nil
  | stop other => exact kept (List.mem_filter.mp registration_mem).1 0
  | stopAll => exact absurd registration_mem List.not_mem_nil
  | drop => exact absurd registration_mem List.not_mem_nil
  | _ => exact kept registration_mem 0

theorem Numbered.run {scheduler : Scheduler} (numbered : scheduler.Numbered)
    (actions : List Action) : (scheduler.run actions).Numbered :=
  run_induction Numbered numbered (fun _ action still => still.step action) actions

theorem count_issued_le_run (scheduler : Scheduler) (actions : List Action) (name : String) :
    scheduler.ledger.issued.count name ≤ (scheduler.run actions).ledger.issued.count name := by
  refine run_induction (scheduler.ledger.issued.count name ≤ ·.ledger.issued.count name)
    (Nat.le_refl _) ?_ actions
  intro current action still
  rw [count_issued_step]
  exact Nat.le_trans still (Nat.le_add_right _ _)

/-- Whatever is delivered comes from a registration whose number was given. -/
theorem Numbered.deliveries {scheduler : Scheduler} (numbered : scheduler.Numbered)
    {actions : List Action} {delivery : Delivery}
    (delivery_mem : delivery ∈ scheduler.deliveries actions) :
    delivery.registration.serial <
      (scheduler.run actions).ledger.issued.count delivery.name := by
  induction actions generalizing scheduler with
  | nil => exact absurd delivery_mem List.not_mem_nil
  | cons action rest ih =>
      rcases List.mem_append.mp delivery_mem with now | later
      · have polled := scheduler.registration_mem_of_stepDeliveries now
        exact Nat.lt_of_lt_of_le (numbered delivery.registration polled)
          (scheduler.count_issued_le_run (action :: rest) delivery.name)
      · exact ih (numbered.step action) later

/-- The actions that take the timer of a name away. -/
def Action.removes (name : String) : Action → Bool
  | .start options _ => options.name == name
  | .stop other => other == name
  | .stopAll => true
  | .drop => true
  | _ => false

/-- Such an action cancels whatever the timer has under way, and does nothing else to the record
of executions. -/
theorem ledger_step_of_removes (scheduler : Scheduler) {name : String} {teardown : Action}
    (removes : teardown.removes name = true) :
    ∃ (ledger : Ledger) (concerns : Run → Bool),
      ledger.now = scheduler.now ∧ ledger.runs = scheduler.ledger.runs ∧
        (∀ run : Run, run.owner = .timer → run.name = name → concerns run = true) ∧
        (scheduler.step teardown).ledger = ledger.cancel concerns := by
  cases teardown with
  | start options probe =>
      have named : options.name = name := by simpa [Action.removes] using removes
      refine ⟨scheduler.ledger.issue options.name, _, rfl, rfl, ?_,
        ledger_launch scheduler options probe⟩
      intro run owned sameName
      simp [owned, sameName, named]
  | stop other =>
      have named : other = name := by simpa [Action.removes] using removes
      refine ⟨_, _, rfl, rfl, ?_, ledger_stop scheduler other⟩
      intro run owned sameName
      simp [owned, sameName, named]
  | stopAll => exact ⟨_, _, rfl, rfl, fun run owned _ => by simp [owned], ledger_stopAll scheduler⟩
  | drop => exact ⟨_, _, rfl, rfl, fun run owned _ => by simp [owned], ledger_drop scheduler⟩
  | _ => simp [Action.removes] at removes

theorem stepDeliveries_of_removes (scheduler : Scheduler) {name : String} {teardown : Action}
    (removes : teardown.removes name = true) : scheduler.stepDeliveries teardown = [] := by
  cases teardown with
  | advance milliseconds => simp [Action.removes] at removes
  | pass milliseconds turns => simp [Action.removes] at removes
  | _ => rfl

theorem unpolled_of_removes {scheduler : Scheduler} (numbered : scheduler.Numbered)
    {registration : Registration} (registration_mem : registration ∈ scheduler.polled)
    {teardown : Action} (removes : teardown.removes registration.options.name = true) :
    ∀ other ∈ (scheduler.step teardown).polled,
      other.options.name = registration.options.name → other.serial ≠ registration.serial := by
  intro other other_mem named
  have given := numbered registration registration_mem
  rw [polled_step] at other_mem
  cases teardown with
  | start options probe =>
      have sameName : options.name = registration.options.name := by
        simpa [Action.removes] using removes
      rcases List.mem_append.mp other_mem with old | new
      · have unlike := (List.mem_filter.mp old).2
        simp [named, sameName] at unlike
      -- A timer that takes over has the next number, which is beyond all that were given.
      · split at new
        · rw [List.mem_singleton] at new
          subst new
          simp only [Ledger.registration, sameName]
          omega
        · exact absurd new List.not_mem_nil
  | stop stopped =>
      have sameName : stopped = registration.options.name := by
        simpa [Action.removes] using removes
      have unlike := (List.mem_filter.mp other_mem).2
      simp [named, sameName] at unlike
  | stopAll => exact absurd other_mem List.not_mem_nil
  | drop => exact absurd other_mem List.not_mem_nil
  | _ => simp [Action.removes] at removes

theorem silenced_of_removes {scheduler : Scheduler} (numbered : scheduler.Numbered)
    {registration : Registration} (registration_mem : registration ∈ scheduler.polled)
    {teardown : Action} (removes : teardown.removes registration.options.name = true) :
    (scheduler.step teardown).Silenced registration.options.name registration.serial where
  issued := by
    rw [count_issued_step]
    exact Nat.lt_of_lt_of_le (numbered registration registration_mem) (Nat.le_add_right _ _)
  unpolled := unpolled_of_removes numbered registration_mem removes
  closed := by
    rcases ledger_step_of_removes scheduler removes with
      ⟨ledger, concerns, _, _, concerned, cancelled⟩
    rw [now, cancelled, Ledger.ticksOf_cancel]
    intro run run_mem
    rcases List.mem_map.mp run_mem with ⟨old, old_mem, rfl⟩
    have tick := Run.isTickOf_iff.mp (List.mem_filter.mp old_mem).2
    exact ledger.isOpen_strike concerns (concerned old tick.1 tick.2.1)

theorem executions_step_of_removes (scheduler : Scheduler) {name : String} {teardown : Action}
    (removes : teardown.removes name = true) (serial : Nat) :
    ((scheduler.step teardown).ledger.ticksOf name serial).map (·.execution) =
      (scheduler.ledger.ticksOf name serial).map (·.execution) := by
  rcases ledger_step_of_removes scheduler removes with
    ⟨ledger, concerns, _, sameRuns, _, cancelled⟩
  rw [cancelled, Ledger.ticksOf_cancel, List.map_map, Ledger.ticksOf, sameRuns, Ledger.ticksOf]
  apply List.map_congr_left
  intro run _
  exact ledger.execution_strike concerns run

/-- To be torn down is no way for a call to come to its own end. -/
theorem completed_step_of_removes (scheduler : Scheduler) {name : String} {teardown : Action}
    (removes : teardown.removes name = true) (serial : Nat) :
    ((scheduler.step teardown).ledger.ticksOf name serial).map
        (·.hasCompleted (scheduler.step teardown).now) =
      (scheduler.ledger.ticksOf name serial).map (·.hasCompleted scheduler.now) := by
  rcases ledger_step_of_removes scheduler removes with
    ⟨ledger, concerns, sameNow, sameRuns, _, cancelled⟩
  rw [now, cancelled, Ledger.ticksOf_cancel, List.map_map, Ledger.ticksOf, sameRuns,
    Ledger.ticksOf, ← sameNow]
  apply List.map_congr_left
  intro run _
  exact ledger.hasCompleted_strike concerns run

/-- From one moment to another the timer of a registration has started no execution and delivered
nothing, none of its calls has come to its own end, and none is under way. -/
structure SilentBetween (before after : Scheduler) (history : List Delivery) (name : String)
    (serial : Nat) : Prop where
  unpolled : ∀ registration ∈ after.polled,
    registration.options.name = name → registration.serial ≠ serial
  started : (after.ledger.ticksOf name serial).map (·.execution) =
    (before.ledger.ticksOf name serial).map (·.execution)
  completed : (after.ledger.ticksOf name serial).map (·.hasCompleted after.now) =
    (before.ledger.ticksOf name serial).map (·.hasCompleted before.now)
  closed : ∀ run ∈ after.ledger.ticksOf name serial, run.isOpen after.now = false
  delivered : ∀ delivery ∈ history, delivery.isOf name serial = false
  cached : ∀ result, after.cached name = some result → before.cached name = some result ∨
    ∃ delivery ∈ history, delivery.name = name ∧ delivery.registration.serial ≠ serial ∧
      delivery.result = result

/-- Whatever takes the timer of a registration away silences it for good. -/
theorem silentBetween_of_removes {scheduler : Scheduler} (numbered : scheduler.Numbered)
    {registration : Registration} (registration_mem : registration ∈ scheduler.polled)
    {teardown : Action} (removes : teardown.removes registration.options.name = true)
    (later : List Action) :
    scheduler.SilentBetween (scheduler.run (teardown :: later))
      (scheduler.deliveries (teardown :: later)) registration.options.name
      registration.serial := by
  have silenced := silenced_of_removes numbered registration_mem removes
  have ticks := silenced.ticksOf_run later
  have undelivered : ∀ delivery ∈ scheduler.deliveries (teardown :: later),
      delivery.isOf registration.options.name registration.serial = false := by
    intro delivery delivery_mem
    rw [deliveries, stepDeliveries_of_removes scheduler removes, List.nil_append] at delivery_mem
    exact silenced.deliveries_run later delivery delivery_mem
  refine ⟨(silenced.run later).unpolled, ?_, ?_, (silenced.run later).closed, undelivered, ?_⟩
  · rw [run_cons, ticks, executions_step_of_removes scheduler removes]
  · rw [run_cons, ticks, silenced.completed_run later, completed_step_of_removes scheduler removes]
  · intro result cached
    rcases scheduler.cached_run_eq_some _ cached with
      earlier | ⟨delivery, delivery_mem, named, delivered⟩
    · exact Or.inl earlier
    -- A later timer may well deliver under the same name, but with a number of its own.
    · have unlike := undelivered delivery delivery_mem
      exact Or.inr ⟨delivery, delivery_mem, named,
        by simpa [Delivery.isOf, named] using unlike, delivered⟩

end Scheduler

end Vitals
