import Mathlib.Data.List.Nodup
import Vitals.Proofs.Polling.Silence

/-!
# One timer for a name

At most one timer runs for a name, and the number of a registration is given once. So whatever a
passage of time puts on record under the name and the number of a timer, this timer has started,
and the record of a registration that is new is empty.
-/

namespace Vitals

/-- To leave out members of a list is to leave out what comes of them. -/
theorem flatMap_filter_of_agree {α β : Type} {members : List α} {partsOf : α → List β}
    {keeps : α → Bool} {picks : β → Bool}
    (agree : ∀ member ∈ members, ∀ part ∈ partsOf member, picks part = keeps member) :
    (members.filter keeps).flatMap partsOf = (members.flatMap partsOf).filter picks := by
  induction members with
  | nil => rfl
  | cons member rest ih =>
      have own := agree member List.mem_cons_self
      rw [List.flatMap_cons, List.filter_append,
        ← ih fun other other_mem => agree other (List.mem_cons_of_mem _ other_mem)]
      cases kept : keeps member with
      | true =>
          rw [List.filter_cons_of_pos kept, List.flatMap_cons]
          congr 1
          exact (List.filter_eq_self.mpr fun part part_mem => (own part part_mem).trans kept).symm
      | false =>
          have gone : (partsOf member).filter picks = [] := by
            rw [List.filter_eq_nil_iff]
            intro part part_mem
            simp [own part part_mem, kept]
          rw [List.filter_cons_of_neg (by simp [kept]), gone, List.nil_append]

namespace Registration

/-- The record of an execution that answers a tick, as long as it is not cancelled. -/
def tickRun (registration : Registration) (tick : Tick) : Run :=
  ⟨registration.serial, .timer, some tick.due, tick.execution, none⟩

end Registration

/-- An execution, whose it is and who waits for it: what does not change about a record. -/
structure Charge where
  owner : Owner
  serial : Nat
  execution : Execution

namespace Charge

def name (charge : Charge) : String := charge.execution.options.name

end Charge

def Run.charge (run : Run) : Charge := ⟨run.owner, run.serial, run.execution⟩

theorem Ledger.charge_strike (ledger : Ledger) (concerns : Run → Bool) (run : Run) :
    (ledger.strike concerns run).charge = run.charge := by
  unfold strike
  split <;> rfl

namespace Scheduler

variable {scheduler : Scheduler}

theorem mem_polled {registration : Registration} :
    registration ∈ scheduler.polled ↔
      ∃ timer ∈ scheduler.timers, timer.registration = registration :=
  List.mem_map

theorem timers_launch (scheduler : Scheduler) (options : Options) (probe : Probe) :
    (scheduler.launch options probe).timers =
      scheduler.timers.filter (·.name != options.name) ++
        (options.interval.map fun period => Timer.start scheduler.now period
          (scheduler.ledger.registration options probe)).toList := by
  cases interval : options.interval with
  | none =>
      simp only [launch, start, Ledger.registration, interval, Option.map_none, Option.toList_none,
        List.append_nil]
      rfl
  | some period =>
      simp only [launch, start, Ledger.registration, interval]
      rfl

/-- What a step finds on record stays there. What it adds, a timer or an inquiry has started. -/
theorem mem_runs_step {action : Action} {run : Run}
    (run_mem : run ∈ (scheduler.step action).ledger.runs) :
    (∃ old ∈ scheduler.ledger.runs, old.charge = run.charge) ∨
    (run.owner = .timer ∧ ∃ registration ∈ scheduler.polled,
      run.name = registration.options.name ∧ run.serial = registration.serial) ∨
    ∃ inquiry, action = .inquire inquiry ∧ run ∈ inquiry.runs := by
  have struck (ledger : Ledger) (concerns : Run → Bool)
      (sameRuns : ledger.runs = scheduler.ledger.runs)
      (mem : run ∈ (ledger.cancel concerns).runs) :
      ∃ old ∈ scheduler.ledger.runs, old.charge = run.charge := by
    rw [Ledger.runs_cancel, sameRuns] at mem
    rcases List.mem_map.mp mem with ⟨old, old_mem, rfl⟩
    exact ⟨old, old_mem, (ledger.charge_strike concerns old).symm⟩
  have passed {next : Scheduler} {history : List Delivery}
      (passage : scheduler.Passage next history) (mem : run ∈ next.ledger.runs) :
      run ∈ scheduler.ledger.runs ∨
        (run.owner = .timer ∧ ∃ registration ∈ scheduler.polled,
          run.name = registration.options.name ∧ run.serial = registration.serial) := by
    rcases passage with ⟨milliseconds, courseOf, isOf⟩
    rw [runs_follow] at mem
    exact (List.mem_append.mp mem).imp_right (scheduler.mem_runs_follow isOf)
  cases action with
  | start options probe =>
      rw [step, ledger_launch] at run_mem
      exact Or.inl (struck _ _ rfl run_mem)
  | stop name => exact Or.inl (struck _ _ rfl run_mem)
  | stopAll => exact Or.inl (struck _ _ rfl run_mem)
  | drop => exact Or.inl (struck _ _ rfl run_mem)
  | abandon ticket => exact Or.inl (struck _ _ rfl run_mem)
  | inquire inquiry =>
      rcases List.mem_append.mp run_mem with old | new
      · exact Or.inl ⟨run, old, rfl⟩
      · exact Or.inr (Or.inr ⟨inquiry, rfl, new⟩)
  | advance milliseconds =>
      rcases passed (scheduler.passage_advance milliseconds) run_mem with old | new
      · exact Or.inl ⟨run, old, rfl⟩
      · exact Or.inr (Or.inl new)
  | pass milliseconds turns =>
      rcases passed (scheduler.passage_pass milliseconds turns) run_mem with old | new
      · exact Or.inl ⟨run, old, rfl⟩
      · exact Or.inr (Or.inl new)

/-- No name has two timers, and the numbers in use were given. -/
structure Orderly (scheduler : Scheduler) : Prop where
  names_nodup : (scheduler.polled.map (·.options.name)).Nodup
  numbered : scheduler.Numbered
  ticks_numbered : ∀ run ∈ scheduler.ledger.runs, run.owner = .timer →
    run.serial < scheduler.ledger.issued.count run.name

theorem orderly_startingAt (now : Nat) : (startingAt now).Orderly where
  names_nodup := List.nodup_nil
  numbered := numbered_startingAt now
  ticks_numbered := fun _ run_mem => absurd run_mem List.not_mem_nil

namespace Orderly

theorem names_nodup_step (orderly : scheduler.Orderly) (action : Action) :
    ((scheduler.step action).polled.map (·.options.name)).Nodup := by
  have without (name : String) :
      ((scheduler.polled.filter (·.options.name != name)).map (·.options.name)).Nodup :=
    orderly.names_nodup.sublist (List.filter_sublist.map _)
  rw [polled_step]
  cases action with
  | start options probe =>
      rw [List.map_append]
      apply (without options.name).append
      · split <;> simp
      · intro name old new
        rcases List.mem_map.mp old with ⟨registration, registration_mem, rfl⟩
        have unlike := (List.mem_filter.mp registration_mem).2
        split at new
        · simp only [List.map_cons, List.map_nil, List.mem_singleton] at new
          rw [new] at unlike
          simp [Ledger.registration] at unlike
        · simp at new
  | stop name => exact without name
  | stopAll => exact List.nodup_nil
  | drop => exact List.nodup_nil
  | _ => exact orderly.names_nodup

theorem ticks_numbered_step (orderly : scheduler.Orderly) (action : Action) :
    ∀ run ∈ (scheduler.step action).ledger.runs, run.owner = .timer →
      run.serial < (scheduler.step action).ledger.issued.count run.name := by
  intro run run_mem owned
  rw [count_issued_step]
  apply Nat.lt_of_lt_of_le _ (Nat.le_add_right _ _)
  rcases mem_runs_step run_mem with
    ⟨old, old_mem, sameCharge⟩ | ⟨-, registration, polled, sameName, sameSerial⟩ |
    ⟨inquiry, -, answer⟩
  · have sameOwner : old.owner = run.owner := congrArg Charge.owner sameCharge
    have sameSerial : old.serial = run.serial := congrArg Charge.serial sameCharge
    have sameName : old.name = run.name := congrArg Charge.name sameCharge
    rw [← sameSerial, ← sameName]
    exact orderly.ticks_numbered old old_mem (sameOwner.trans owned)
  · rw [sameName, sameSerial]
    exact orderly.numbered registration polled
  · rcases List.mem_map.mp answer with ⟨entry, -, rfl⟩
    cases owned

theorem step (orderly : scheduler.Orderly) (action : Action) :
    (scheduler.step action).Orderly where
  names_nodup := orderly.names_nodup_step action
  numbered := orderly.numbered.step action
  ticks_numbered := orderly.ticks_numbered_step action

theorem run (orderly : scheduler.Orderly) (actions : List Action) :
    (scheduler.run actions).Orderly :=
  run_induction Orderly orderly (fun _ action still => still.step action) actions

/-- A registration that has just got its number has no execution on record. -/
theorem ticksOf_registration (orderly : scheduler.Orderly) (options : Options) (probe : Probe) :
    scheduler.ledger.ticksOf options.name (scheduler.ledger.registration options probe).serial =
      [] := by
  rw [Ledger.ticksOf, List.filter_eq_nil_iff]
  intro run run_mem isTick
  rcases Run.isTickOf_iff.mp isTick with ⟨owned, named, numbered⟩
  have given := orderly.ticks_numbered run run_mem owned
  rw [named, numbered] at given
  exact Nat.lt_irrefl _ given

end Orderly

variable {courseOf : Timer → Timer.Course} {timer other : Timer}

theorem filter_runsOf_self (isOf : (courseOf timer).IsOf timer) :
    (runsOf timer (courseOf timer)).filter (·.isTickOf timer.name timer.registration.serial) =
      (courseOf timer).started.map timer.registration.tickRun := by
  rw [List.filter_eq_self.mpr]
  · rfl
  · intro run run_mem
    rcases List.mem_map.mp run_mem with ⟨tick, tick_mem, rfl⟩
    rw [Run.isTickOf_iff]
    refine ⟨rfl, ?_, rfl⟩
    rw [Run.name, isOf.options tick tick_mem]
    rfl

theorem filter_runsOf_of_ne (isOf : (courseOf other).IsOf other)
    (unlike : other.name ≠ timer.name) :
    (runsOf other (courseOf other)).filter (·.isTickOf timer.name timer.registration.serial) =
      [] := by
  rw [List.filter_eq_nil_iff]
  intro run run_mem isTick
  rcases List.mem_map.mp run_mem with ⟨tick, tick_mem, rfl⟩
  have named := (Run.isTickOf_iff.mp isTick).2.1
  rw [Run.name, isOf.options tick tick_mem] at named
  exact unlike named

/-- A passage of time puts on record for a registration what its timer has started. -/
theorem ticksOf_follow (names_nodup : (scheduler.polled.map (·.options.name)).Nodup)
    (isOf : ∀ timer, (courseOf timer).IsOf timer) (timer_mem : timer ∈ scheduler.timers)
    (horizon : Nat) :
    (scheduler.follow horizon courseOf).ledger.ticksOf timer.name timer.registration.serial =
      scheduler.ledger.ticksOf timer.name timer.registration.serial ++
        (courseOf timer).started.map timer.registration.tickRun := by
  rcases List.append_of_mem timer_mem with ⟨before, after, split⟩
  have elsewhere : ∀ other ∈ before ++ after, other.name ≠ timer.name := by
    have nodup : ((before ++ timer :: after).map Timer.name).Nodup := by
      rw [polled, List.map_map, split] at names_nodup
      exact names_nodup
    rw [List.map_append, List.map_cons, List.nodup_middle, List.nodup_cons,
      ← List.map_append] at nodup
    intro other other_mem named
    apply nodup.1
    rw [← named]
    exact List.mem_map_of_mem other_mem
  have foreign (others : List Timer) (others_sub : ∀ other ∈ others, other ∈ before ++ after) :
      (others.flatMap fun other => runsOf other (courseOf other)).filter
        (·.isTickOf timer.name timer.registration.serial) = [] := by
    rw [List.filter_flatMap, List.flatMap_eq_nil_iff]
    intro other other_mem
    exact filter_runsOf_of_ne (isOf other) (elsewhere other (others_sub other other_mem))
  rw [Ledger.ticksOf, runs_follow, List.filter_append, split, List.flatMap_append,
    List.flatMap_cons, List.filter_append, List.filter_append, filter_runsOf_self (isOf timer),
    foreign before fun _ mem => List.mem_append_left _ mem,
    foreign after fun _ mem => List.mem_append_right _ mem, List.nil_append, List.append_nil,
    Ledger.ticksOf]

end Scheduler

end Vitals
