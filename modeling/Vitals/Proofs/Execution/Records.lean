import Vitals.Polling.Ledger
import Vitals.Proofs.Execution.Race

/-!
# The record of a race

The ledger keeps no task and no waiter. Of an execution it has the instant at which it was
cancelled, if it was, and works out the rest from the clock. A race goes through every event
instead. What they say of a call agrees whenever the race is at rest, that is, when nothing more can
happen at the instant.

Of what happens at the end of an execution and at the same instant, the ledger lets the end come
first. So the two are compared where waiters are given up at rest only.
-/

namespace Vitals

namespace Race

/-- Nothing more can happen at this instant, unless the waiter is given up. -/
structure AtRest (race : Race) : Prop where
  unfinished : race.finish? = none
  untold : race.collect? = none
  unexpired : race.expire? = none

/-- What an event of a race means for a ledger: that time passes, or that an execution is cancelled.
Nothing else is written down. -/
def Event.onLedger (concerns : Run → Bool) (ledger : Ledger) : Event → Ledger
  | .tick => { ledger with now := ledger.now + 1 }
  | .abandon => ledger.cancel concerns
  | _ => ledger

/-- A race whose record stands at a place of the ledger, cancelled if the waiter was given up. -/
structure OnRecord (race : Race) (ledger : Ledger) (place : Nat) (entry : Run) : Prop where
  execution : entry.execution = race.execution
  now : ledger.now = race.now
  recorded : ∃ instant, ledger.runs[place]? = some { entry with cancelledAt := instant } ∧
    (instant = none ↔ race.waiter ≠ .gone)
  /-- Nobody who was given up has left a call behind. -/
  gone : race.waiter = .gone → race.task = .stopped

variable {execution : Execution} {race next : Race} {event : Event} {ledger : Ledger} {place : Nat}
  {entry : Run} {concerns : Run → Bool}

/-- A waiter that is still there when a race is at rest waits for a call under way. -/
theorem Stage.running_of_atRest (stage : Stage execution race) (rest : race.AtRest)
    (waits : race.waiter = .waiting) : race.task = .running ∧ race.now < execution.endsAt := by
  cases stage with
  | @running now started inTime =>
      refine ⟨rfl, Nat.lt_of_le_of_ne inTime ?_⟩
      rintro rfl
      rcases busy_at_end execution with finishes | expires
      · exact finishes rest.unfinished
      · exact expires rest.unexpired
  | ended ends => cases rest.untold
  | _ => cases waits

namespace OnRecord

/-- An answer is not written down. -/
theorem answer (onRecord : race.OnRecord ledger place entry) (waits : race.waiter = .waiting)
    (result : Result) : (race.answer result).OnRecord ledger place entry := by
  rcases onRecord with ⟨same, now, ⟨instant, recorded, kept⟩, -⟩
  refine ⟨same, now, ⟨instant, recorded, ?_⟩, Waiter.noConfusion⟩
  rw [kept, waits]
  exact iff_of_true Waiter.noConfusion Waiter.noConfusion

theorem step (onRecord : race.OnRecord ledger place entry) (stage : Stage execution race)
    (ran : entry.execution = execution)
    (concerned : ∀ instant, concerns { entry with cancelledAt := instant } = true)
    (inOrder : event = .abandon → race.AtRest) (happens : Happens race event next) :
    next.OnRecord (event.onLedger concerns ledger) place entry := by
  have answered := onRecord.answer
  rcases onRecord with ⟨same, now, ⟨instant, recorded, kept⟩, gone⟩
  cases happens with
  | finish runs behaves reached =>
      refine ⟨same, now, ⟨instant, recorded, kept⟩, ?_⟩
      intro given
      exact absurd (gone given) (by rw [runs]; exact Task.noConfusion)
  | collect waits told => exact answered waits _
  | expire waits runs due => exact answered waits _
  | abandon waits =>
      rcases stage.running_of_atRest (inOrder rfl) waits with ⟨runs, underWay⟩
      have uncancelled : instant = none := kept.mpr (by rw [waits]; exact Waiter.noConfusion)
      subst uncancelled
      have isOpen : Run.isOpen ledger.now { entry with cancelledAt := none } = true := by
        rw [Run.isOpen, now, ran]
        simpa using underWay
      refine ⟨same, now, ⟨some ledger.now, ?_, by simp⟩, ?_⟩
      · simp [Event.onLedger, Ledger.cancel, recorded, isOpen, concerned]
      · intro _
        rw [runs]
        rfl
  | tick unfinished untold unexpired =>
      exact ⟨same, congrArg (· + 1) now, ⟨instant, recorded, kept⟩, gone⟩

theorem run (untied : execution.behaviour.delay ≠ execution.options.timeout)
    (onRecord : race.OnRecord ledger place entry) (stage : Stage execution race)
    (ran : entry.execution = execution)
    (concerned : ∀ instant, concerns { entry with cancelledAt := instant } = true)
    {events : List Event} (happen : race.run events = some next)
    (inOrder : ∀ earlier before, earlier ++ [.abandon] <+: events →
      race.run earlier = some before → before.AtRest) :
    Stage execution next ∧
      next.OnRecord (events.foldl (Event.onLedger concerns) ledger) place entry := by
  induction events generalizing race ledger with
  | nil =>
      cases happen
      exact ⟨stage, onRecord⟩
  | cons event rest ih =>
      rcases Option.bind_eq_some_iff.mp happen with ⟨middle, happens, later⟩
      have atRest : event = .abandon → race.AtRest := by
        rintro rfl
        exact inOrder [] race (List.cons_prefix_cons.mpr ⟨rfl, List.nil_prefix⟩) rfl
      have onMiddle := onRecord.step stage ran concerned atRest (happens_of_step happens)
      refine ih onMiddle (stage.step untied (happens_of_step happens)).1 later ?_
      intro earlier before within ran
      apply inOrder (event :: earlier) before (List.cons_prefix_cons.mpr ⟨rfl, within⟩)
      rw [Race.run, happens]
      exact ran

/-- What the record of a race at rest says of its call. -/
theorem agrees (onRecord : race.OnRecord ledger place entry) (stage : Stage execution race)
    (ran : entry.execution = execution) (rest : race.AtRest) :
    ∃ instant, let record := { entry with cancelledAt := instant }
      ledger.runs[place]? = some record ∧ (instant = none ↔ race.waiter ≠ .gone) ∧
      (record.isOpen ledger.now = true ↔ race.task = .running) ∧
      (record.hasCompleted ledger.now = true ↔ ∃ outcome, race.task = .ended outcome) := by
  rcases onRecord with ⟨-, now, ⟨instant, recorded, kept⟩, gone⟩
  refine ⟨instant, recorded, kept, ?_⟩
  rw [Run.isOpen, Run.hasCompleted, now, ran]
  cases stage with
  | @running now started inTime =>
      have underWay := (Stage.running started inTime).running_of_atRest rest rfl
      have uncancelled : instant = none := kept.mpr Waiter.noConfusion
      simp [uncancelled, underWay.2, Nat.not_le.mpr underWay.2]
  | ended ends => cases rest.untold
  | told reached ends =>
      have uncancelled : instant = none := kept.mpr Waiter.noConfusion
      simp [uncancelled, reached, Nat.not_lt.mpr reached, Execution.completes, ends]
  | expired reached endless =>
      simp [Nat.not_lt.mpr reached, Execution.completes, endless]
  | stopped =>
      have cancelled : instant ≠ none := fun uncancelled => kept.mp uncancelled rfl
      simp [cancelled]
  | left ends => cases gone rfl

end OnRecord

/-- The ledger refines the race. An execution goes on record as its race starts; from then on, time
passes on the ledger as it does in the race, and the execution is cancelled there when its waiter is
given up. Whenever the race is at rest, the record is cancelled if and only if the waiter is gone,
it is open if and only if the task is running, and its call has completed if and only if the task
has an outcome. -/
theorem ledger_of_race {alarm : Alarm}
    (punctual : alarm.Punctual execution.startedAt execution.options.timeout)
    (untied : execution.behaviour.delay ≠ execution.options.timeout)
    (ran : entry.execution = execution) (uncancelled : entry.cancelledAt = none)
    (recorded : ledger.runs[place]? = some entry) (now : ledger.now = execution.startedAt)
    (concerned : ∀ instant, concerns { entry with cancelledAt := instant } = true)
    {events : List Event} (happen : (start alarm execution).run events = some race)
    (inOrder : ∀ earlier before, earlier ++ [.abandon] <+: events →
      (start alarm execution).run earlier = some before → before.AtRest)
    (rest : race.AtRest) :
    let later := events.foldl (Event.onLedger concerns) ledger
    later.now = race.now ∧ ∃ instant, let record := { entry with cancelledAt := instant }
      later.runs[place]? = some record ∧ (instant = none ↔ race.waiter ≠ .gone) ∧
      (record.isOpen later.now = true ↔ race.task = .running) ∧
      (record.hasCompleted later.now = true ↔ ∃ outcome, race.task = .ended outcome) := by
  intro later
  have onRecord : (start alarm execution).OnRecord ledger place entry := by
    refine ⟨ran, now, ⟨none, ?_, by simp [start]⟩, Waiter.noConfusion⟩
    rw [recorded, ← uncancelled]
  rcases onRecord.run untied (Stage.of_start punctual) ran concerned happen inOrder with
    ⟨stage, onLater⟩
  exact ⟨onLater.now, onLater.agrees stage ran rest⟩

-- A call that hangs, given up after a millisecond.
example :
    let execution : Execution := ⟨⟨"db", 5, true, none⟩, .hangs, 0⟩
    let ledger := (Ledger.startingAt 0).record [⟨0, .inquiry 7, none, execution, none⟩]
    let events : List Event := [.tick, .abandon, .tick]
    let later := events.foldl (Event.onLedger (·.owner == .inquiry 7)) ledger
    ((start .ofClock execution).run events).isSome = true ∧
      later.runs.map (·.cancelledAt) = [some 1] ∧ later.now = 2 := by
  decide +kernel

end Race

end Vitals
