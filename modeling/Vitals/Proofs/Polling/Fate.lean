import Vitals.Proofs.Polling.Ownership

/-!
# What becomes of a call

An execution keeps its place on record. A call that is under way before a step and that nobody
waits for after it has come to its own end in the step, or it never will: no later action takes it
up again, because a record that is closed stays as it is.
-/

namespace Vitals

namespace Ledger

variable (ledger : Ledger)

theorem charge_mem_charges {index : Nat} {run : Run} (found : ledger.runs[index]? = some run)
    (isOpen : run.isOpen ledger.now = true) : run.charge ∈ ledger.charges :=
  List.mem_map_of_mem (List.mem_filter.mpr ⟨List.mem_of_getElem? found, isOpen⟩)

/-- It is settled whether a call has come to its own end: it has if it did so by an instant. -/
def Settles (index : Nat) (run : Run) (instant : Nat) : Prop :=
  ∃ settled, ledger.runs[index]? = some settled ∧ settled.charge = run.charge ∧
    settled.isOpen ledger.now = false ∧
    (settled.hasCompleted ledger.now = true ↔
      run.execution.completes = true ∧ run.execution.endsAt ≤ instant)

end Ledger

namespace Scheduler

variable {scheduler : Scheduler}

/-- A step keeps each execution at its place on record, and at most cancels it. -/
theorem getElem?_runs_step (action : Action) {index : Nat} {run : Run}
    (found : scheduler.ledger.runs[index]? = some run) :
    ∃ ledger concerns, ledger.now = scheduler.now ∧
      (scheduler.step action).ledger.runs[index]? = some (Ledger.strike ledger concerns run) ∧
      ((scheduler.step action).now = scheduler.now ∨ Ledger.strike ledger concerns run = run) := by
  have cancelled (ledger : Ledger) (concerns : Run → Bool)
      (sameRuns : ledger.runs = scheduler.ledger.runs) :
      (ledger.cancel concerns).runs[index]? = some (ledger.strike concerns run) := by
    rw [Ledger.runs_cancel, List.getElem?_map, sameRuns, found]
    rfl
  have index_lt : index < scheduler.ledger.runs.length := (List.getElem?_eq_some_iff.mp found).1
  have kept (runs : List Run) : (scheduler.ledger.runs ++ runs)[index]? = some run := by
    rw [List.getElem?_append_left index_lt, found]
  have unstruck : scheduler.ledger.strike (fun _ => false) run = run :=
    scheduler.ledger.strike_of_unconcerned _ rfl
  have passed {next : Scheduler} {history : List Delivery}
      (passage : scheduler.Passage next history) : next.ledger.runs[index]? = some run := by
    rcases passage with ⟨milliseconds, courseOf, isOf⟩
    rw [runs_follow]
    exact kept _
  cases action with
  | start options probe =>
      have struck := cancelled (scheduler.ledger.issue options.name)
        (fun run => run.owner == .timer && run.name == options.name) rfl
      rw [← ledger_launch] at struck
      exact ⟨scheduler.ledger.issue options.name, _, rfl, struck, Or.inl (now_step rfl)⟩
  | stop name => exact ⟨_, _, rfl, cancelled scheduler.ledger _ rfl, Or.inl rfl⟩
  | stopAll => exact ⟨_, _, rfl, cancelled scheduler.ledger _ rfl, Or.inl rfl⟩
  | drop => exact ⟨_, _, rfl, cancelled scheduler.ledger _ rfl, Or.inl rfl⟩
  | abandon ticket => exact ⟨_, _, rfl, cancelled scheduler.ledger _ rfl, Or.inl rfl⟩
  | inquire inquiry =>
      refine ⟨scheduler.ledger, fun _ => false, rfl, ?_, Or.inr unstruck⟩
      rw [unstruck]
      exact kept inquiry.runs
  | advance milliseconds =>
      refine ⟨scheduler.ledger, fun _ => false, rfl, ?_, Or.inr unstruck⟩
      rw [unstruck]
      exact passed (scheduler.passage_advance milliseconds)
  | pass milliseconds turns =>
      refine ⟨scheduler.ledger, fun _ => false, rfl, ?_, Or.inr unstruck⟩
      rw [unstruck]
      exact passed (scheduler.passage_pass milliseconds turns)

/-- What is over or cancelled stays on record as it is. -/
theorem getElem?_runs_run_of_closed (actions : List Action) {index : Nat} {run : Run}
    (found : scheduler.ledger.runs[index]? = some run)
    (closed : run.isOpen scheduler.now = false) :
    (scheduler.run actions).ledger.runs[index]? = some run := by
  induction actions generalizing scheduler with
  | nil => exact found
  | cons action rest ih =>
      rcases scheduler.getElem?_runs_step action found with
        ⟨ledger, concerns, sameNow, still, _⟩
      rw [ledger.strike_of_closed concerns (sameNow ▸ closed)] at still
      exact ih still (Run.isOpen_of_le (scheduler.now_le_step action) closed)

/-- A step that closes the record of a call under way does so for good, and the call has come to
its own end only if it did by then. -/
theorem closed_step (action : Action) {index : Nat} {run : Run}
    (found : scheduler.ledger.runs[index]? = some run) (isOpen : run.isOpen scheduler.now = true) :
    ∃ next, (scheduler.step action).ledger.runs[index]? = some next ∧ next.charge = run.charge ∧
      (next.isOpen (scheduler.step action).now = false →
        (next.hasCompleted (scheduler.step action).now = true ↔
          run.execution.completes = true ∧
            run.execution.endsAt ≤ (scheduler.step action).now)) := by
  simp only [Run.isOpen, Bool.and_eq_true, decide_eq_true_eq] at isOpen
  rcases scheduler.getElem?_runs_step action found with ⟨ledger, concerns, sameNow, still, how⟩
  refine ⟨_, still, ledger.charge_strike concerns run, fun _ => ?_⟩
  rcases how with noTime | unstruck
  · rw [noTime, ← sameNow, ledger.hasCompleted_strike, sameNow]
    simp [Run.hasCompleted, Nat.not_le.mpr isOpen.2]
  · rw [unstruck]
    simp [Run.hasCompleted, isOpen.1]

/-- What was under way in one state and is awaited no longer in the next is settled in the
next, and the record of a later state says so. -/
def Settled (before next : Scheduler) (pending : List Inquiry) (later : Scheduler) : Prop :=
  ∀ index run, before.ledger.runs[index]? = some run → run.isOpen before.now = true →
    run.charge ∉ next.waiting pending → later.ledger.Settles index run next.now

theorem settled_of_owned (first : List Action) (single : first.length ≤ 1)
    {pending : List Inquiry} (owned : (scheduler.run first).Owned pending) (later : List Action) :
    scheduler.Settled (scheduler.run first) pending ((scheduler.run first).run later) := by
  intro index run found isOpen unawaited
  have closed {next : Run} (there : (scheduler.run first).ledger.runs[index]? = some next)
      (sameCharge : next.charge = run.charge) :
      next.isOpen (scheduler.run first).now = false := by
    cases still : next.isOpen (scheduler.run first).now with
    | false => rfl
    | true =>
        have under := (scheduler.run first).ledger.charge_mem_charges there still
        rw [sameCharge] at under
        exact absurd (owned.perm.subset under) unawaited
  match first, single with
  | [], _ =>
      -- Nothing was done, so a call under way is still awaited.
      have none := closed found rfl
      exact absurd isOpen (ne_true_of_eq_false none)
  | [action], _ =>
      rcases closed_step action found isOpen with ⟨next, there, sameCharge, completed⟩
      have isClosed := closed there sameCharge
      have final := getElem?_runs_run_of_closed later there isClosed
      have le := now_le_run (scheduler.step action) later
      have settled := completed isClosed
      rw [← Run.hasCompleted_of_le le isClosed] at settled
      exact ⟨next, final, sameCharge, Run.isOpen_of_le le isClosed, settled⟩

/-- After a step, no timer waits for anything under a name whose timer the step takes away. -/
theorem removes_of_mem_awaited_step (attended : scheduler.Attended) (action : Action)
    {charge : Charge} (awaits : charge ∈ (scheduler.step action).awaited) :
    action.removes charge.name = false := by
  rcases List.mem_flatMap.mp awaits with ⟨timer, timer_mem, own⟩
  have named := (attended.step action).awaited_named timer timer_mem charge own
  rw [named]
  cases action with
  | start options probe =>
      rw [step, timers_launch] at timer_mem
      rcases List.mem_append.mp timer_mem with old | new
      · have unlike := (List.mem_filter.mp old).2
        rw [bne_iff_ne, ne_comm] at unlike
        simpa [Action.removes] using unlike
      · -- The new timer waits for its first tick.
        rcases Option.map_eq_some_iff.mp (Option.mem_toList.mp new) with ⟨period, -, rfl⟩
        exact absurd own List.not_mem_nil
  | advance milliseconds => rfl
  | pass milliseconds turns => rfl
  | _ =>
      rcases mem_timers_step rfl timer_mem with ⟨_, kept⟩ | ⟨_, _, other, _⟩
      · exact kept
      · cases other

end Scheduler

end Vitals
