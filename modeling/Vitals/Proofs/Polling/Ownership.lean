import Mathlib.Data.List.Perm.Basic
import Vitals.Proofs.Polling.Charges

/-!
# Calls under way and who waits for them

An execution is on record from its start on, and it is under way until its end or until it is
cancelled. The timers keep a record of their own: each knows the execution it waits for. That the
two agree is the invariant here. A timer that goes leaves nothing behind under way, because all its
executions are cancelled with it; and a timer that goes on waits for the last execution it has
started, because it starts none before the one before is over.
-/

namespace Vitals

namespace Scheduler

variable {scheduler : Scheduler}

/-- What the timers wait for. -/
def awaited (scheduler : Scheduler) : List Charge :=
  scheduler.timers.flatMap (·.awaited scheduler.now)

/-- The calls that timers have under way are those that they wait for. -/
structure Attended (scheduler : Scheduler) : Prop where
  minds : ∀ timer ∈ scheduler.timers, timer.Minds scheduler.now
  perm : (scheduler.ledger.charges.filter (·.owner == .timer)).Perm
    scheduler.awaited

theorem attended_startingAt (now : Nat) : (startingAt now).Attended where
  minds := fun _ timer_mem => absurd timer_mem List.not_mem_nil
  perm := List.Perm.nil

theorem charges_follow {horizon : Nat} (le : scheduler.now ≤ horizon)
    (courseOf : Timer → Timer.Course) :
    (scheduler.follow horizon courseOf).ledger.charges =
      scheduler.ledger.charges.filter (·.lasts horizon) ++
        (scheduler.timers.flatMap fun timer =>
          timer.begun (courseOf timer)).filter (·.lasts horizon) := by
  have later : (scheduler.follow horizon courseOf).ledger.now = horizon := rfl
  rw [Ledger.charges, Ledger.inFlight, later, runs_follow, List.filter_append, List.map_append]
  congr 1
  · rw [scheduler.ledger.filter_isOpen_of_le le]
    exact Run.map_charge_filter fun _ _ => rfl
  · have begun : (scheduler.timers.flatMap fun timer => timer.begun (courseOf timer)) =
        (scheduler.timers.flatMap fun timer => runsOf timer (courseOf timer)).map Run.charge := by
      simp only [List.map_flatMap, runsOf, List.map_map]
      rfl
    rw [begun]
    apply Run.map_charge_filter
    intro run run_mem
    rcases List.mem_flatMap.mp run_mem with ⟨timer, _, started⟩
    rcases List.mem_map.mp started with ⟨tick, _, rfl⟩
    rfl

/-- Only timers start something when time passes. -/
theorem owner_of_mem_begun {courseOf : Timer → Timer.Course} {charge : Charge}
    (charge_mem : charge ∈ scheduler.timers.flatMap fun timer => timer.begun (courseOf timer)) :
    charge.owner = .timer := by
  rcases List.mem_flatMap.mp charge_mem with ⟨timer, _, started⟩
  rcases List.mem_map.mp started with ⟨tick, _, rfl⟩
  rfl

namespace Attended

theorem awaited_named (attended : scheduler.Attended) :
    ∀ timer ∈ scheduler.timers, ∀ charge ∈ timer.awaited scheduler.now,
      charge.name = timer.name := by
  intro timer timer_mem charge charge_mem
  rcases List.mem_map.mp (List.mem_filter.mp charge_mem).1 with ⟨execution, running, rfl⟩
  have minds := attended.minds timer timer_mem execution (Option.mem_toList.mp running)
  exact congrArg Options.name minds.1

/-- Without the timer of a name, what it waited for is not awaited, and nothing else is missing. -/
theorem awaited_without (attended : scheduler.Attended) (name : String) :
    (scheduler.timers.filter (·.name != name)).flatMap (·.awaited scheduler.now) =
      scheduler.awaited.filter (·.name != name) := by
  apply flatMap_filter_of_agree
  intro timer timer_mem charge charge_mem
  rw [attended.awaited_named timer timer_mem charge charge_mem]

theorem perm_without (attended : scheduler.Attended) (name : String) :
    ((scheduler.ledger.charges.filter fun charge =>
        !(charge.owner == .timer && charge.name == name)).filter (·.owner == .timer)).Perm
      ((scheduler.timers.filter (·.name != name)).flatMap (·.awaited scheduler.now)) := by
  have commuted : (scheduler.ledger.charges.filter fun charge =>
        !(charge.owner == .timer && charge.name == name)).filter (·.owner == .timer) =
      (scheduler.ledger.charges.filter (·.owner == .timer)).filter
        (·.name != name) := by
    rw [List.filter_filter, List.filter_filter]
    apply List.filter_congr
    intro charge _
    cases charge.owner == .timer <;> simp [bne]
  rw [commuted, attended.awaited_without]
  exact attended.perm.filter _

theorem perm_all : ((scheduler.ledger.charges.filter fun charge =>
    !(charge.owner == .timer)).filter (·.owner == .timer)).Perm [] := by
  rw [List.filter_filter, List.filter_eq_nil_iff.mpr]
  simp

theorem stop (attended : scheduler.Attended) (name : String) :
    (scheduler.stop name).Attended where
  minds := fun timer timer_mem => attended.minds timer (List.mem_filter.mp timer_mem).1
  perm := by
    rw [ledger_stop, Ledger.charges_cancel_timer]
    exact attended.perm_without name

theorem launch (attended : scheduler.Attended) (options : Options) (probe : Probe) :
    (scheduler.launch options probe).Attended where
  minds := by
    intro timer timer_mem
    rw [timers_launch] at timer_mem
    rw [now, ledger_launch]
    rcases List.mem_append.mp timer_mem with old | new
    · exact attended.minds timer (List.mem_filter.mp old).1
    · rcases Option.map_eq_some_iff.mp (Option.mem_toList.mp new) with ⟨period, -, rfl⟩
      intro execution none
      cases none
  perm := by
    have idle : ((options.interval.map fun period => Timer.start scheduler.now period
        (scheduler.ledger.registration options probe)).toList).flatMap
          (·.awaited scheduler.now) = [] := by
      cases options.interval <;> rfl
    rw [awaited, timers_launch, List.flatMap_append, now, ledger_launch,
      Ledger.charges_cancel_timer]
    have issued := attended.perm_without options.name
    rw [← List.append_nil (List.flatMap _ _), ← idle] at issued
    exact issued

theorem pass (attended : scheduler.Attended) (milliseconds : Nat) (turns : String → Nat) :
    (scheduler.pass milliseconds turns).Attended where
  minds := by
    intro next next_mem
    simp only [Scheduler.pass, follow, List.map_map] at next_mem
    rcases List.mem_map.mp next_mem with ⟨timer, timer_mem, rfl⟩
    apply Timer.minds_proceed
    intro execution running
    have minds := attended.minds timer timer_mem execution running
    exact ⟨minds.1, Nat.le_trans minds.2 (Nat.le_add_right _ _)⟩
  perm := by
    have le : scheduler.now ≤ scheduler.now + milliseconds := Nat.le_add_right _ _
    generalize horizon_eq : scheduler.now + milliseconds = horizon at le
    -- What was under way and lasts is still awaited, and what is begun and lasts comes to it.
    have old : ((scheduler.ledger.charges.filter (·.lasts horizon)).filter
        (·.owner == .timer)).Perm (scheduler.timers.flatMap (·.awaited horizon)) := by
      have narrowed : scheduler.timers.flatMap (·.awaited horizon) =
          scheduler.awaited.filter (·.lasts horizon) := by
        rw [awaited, List.filter_flatMap]
        congr 1
        funext timer
        exact (Timer.filter_awaited le).symm
      rw [List.filter_comm, narrowed]
      exact attended.perm.filter _
    have new : ((scheduler.timers.flatMap fun timer =>
        timer.begun (scheduler.courseWithin horizon turns timer)).filter (·.lasts horizon)).filter
          (·.owner == .timer) = scheduler.timers.flatMap fun timer =>
            (timer.begun (scheduler.courseWithin horizon turns timer)).filter
              (·.lasts horizon) := by
      rw [← List.filter_flatMap, List.filter_eq_self]
      intro charge charge_mem
      simp [owner_of_mem_begun (List.mem_filter.mp charge_mem).1]
    have awaited_eq : (scheduler.pass milliseconds turns).awaited =
        scheduler.timers.flatMap fun timer => timer.awaited horizon ++
          (timer.begun (scheduler.courseWithin horizon turns timer)).filter (·.lasts horizon) := by
      rw [awaited, Scheduler.pass, horizon_eq]
      simp only [follow, List.map_map, List.flatMap_map]
      congr 1
      funext timer
      exact (Timer.awaited_proceed _ _).symm
    rw [awaited_eq, Scheduler.pass, horizon_eq, charges_follow le, List.filter_append, new]
    exact (old.append_right _).trans (List.flatMap_append_perm _ _ _)

theorem step (attended : scheduler.Attended) (action : Action) :
    (scheduler.step action).Attended := by
  have stopped {next : Scheduler} (timers : next.timers = [])
      (ledger : next.ledger = scheduler.ledger.cancel (·.owner == .timer)) : next.Attended := by
    refine ⟨?_, ?_⟩
    · rw [timers]
      exact fun _ timer_mem => absurd timer_mem List.not_mem_nil
    · rw [awaited, timers, ledger, Ledger.charges_cancel_timers]
      exact perm_all
  cases action with
  | start options probe => exact attended.launch options probe
  | stop name => exact attended.stop name
  | stopAll => exact stopped rfl rfl
  | drop => exact stopped rfl rfl
  | inquire inquiry =>
      refine ⟨attended.minds, ?_⟩
      have foreign : ((inquiry.runs.filter (·.isOpen scheduler.ledger.now)).map
          Run.charge).filter (·.owner == .timer) = [] := by
        rw [List.filter_eq_nil_iff]
        intro charge charge_mem
        rcases List.mem_map.mp charge_mem with ⟨run, run_mem, rfl⟩
        rcases List.mem_map.mp (List.mem_filter.mp run_mem).1 with ⟨entry, _, rfl⟩
        simp [Run.charge]
      rw [Scheduler.step, Ledger.charges_record, List.filter_append, foreign, List.append_nil]
      exact attended.perm
  | abandon ticket =>
      refine ⟨attended.minds, ?_⟩
      have untouched : (scheduler.ledger.charges.filter fun charge =>
          !(charge.owner == .inquiry ticket)).filter (·.owner == .timer) =
            scheduler.ledger.charges.filter (·.owner == .timer) := by
        rw [List.filter_filter]
        apply List.filter_congr
        intro charge _
        cases charge.owner with
        | timer => rfl
        | inquiry other => rfl
      rw [Scheduler.step, Ledger.charges_cancel_inquiry, untouched]
      exact attended.perm
  | advance milliseconds =>
      rw [Scheduler.step, advance_eq_pass]
      exact attended.pass milliseconds _
  | pass milliseconds turns => exact attended.pass milliseconds turns

theorem run (attended : scheduler.Attended) (actions : List Action) :
    (scheduler.run actions).Attended :=
  run_induction Attended attended (fun _ action still => still.step action) actions

/-- A timer waits for one execution at most. -/
theorem names_awaited_sublist (attended : scheduler.Attended) :
    (scheduler.awaited.map Charge.name).Sublist (scheduler.timers.map Timer.name) := by
  have named := attended.awaited_named
  rw [awaited]
  revert named
  -- What is known of each timer has to go through the induction with the list.
  induction scheduler.timers with
  | nil => exact fun _ => List.Sublist.refl []
  | cons timer rest ih =>
      intro named
      rw [List.flatMap_cons, List.map_append]
      have one : ((timer.awaited scheduler.now).map Charge.name).Sublist [timer.name] := by
        have length_le : (timer.awaited scheduler.now).length ≤ 1 := by
          rw [Timer.awaited]
          apply Nat.le_trans (List.length_filter_le _ _)
          cases timer.running <;> simp
        have own := named timer List.mem_cons_self
        cases awaits : timer.awaited scheduler.now with
        | nil => exact List.nil_sublist _
        | cons charge more =>
            rw [awaits] at length_le own
            have single : more = [] := List.length_eq_zero_iff.mp
              (Nat.le_zero.mp (Nat.le_of_succ_le_succ length_le))
            rw [single, List.map_singleton, own charge List.mem_cons_self]
      exact one.append (ih fun other other_mem => named other (List.mem_cons_of_mem _ other_mem))

end Attended

/-- What somebody waits for at an instant: the timers, and the inquiries that are not over. -/
def waiting (scheduler : Scheduler) (pending : List Inquiry) : List Charge :=
  scheduler.awaited ++ pending.flatMap (·.awaited scheduler.now)

/-- Each call under way has one that waits for it, and nobody else does: the timer of its name, or
an inquiry that is not over. It was started under the options of a registration and has not
reached their timeout. -/
structure Owned (scheduler : Scheduler) (pending : List Inquiry) : Prop where
  timers_nodup : (scheduler.timers.map Timer.name).Nodup
  tickets_nodup : (pending.map (·.ticket)).Nodup
  perm : scheduler.ledger.charges.Perm (scheduler.waiting pending)
  nodup : (scheduler.waiting pending).Nodup
  timers : ∀ timer ∈ scheduler.timers, timer.Minds scheduler.now
  inquiries : ∀ inquiry ∈ pending, inquiry.Minds scheduler.now

theorem owner_of_mem_awaited {charge : Charge} (charge_mem : charge ∈ scheduler.awaited) :
    charge.owner = .timer := by
  rcases List.mem_flatMap.mp charge_mem with ⟨timer, _, awaits⟩
  rcases List.mem_map.mp (List.mem_filter.mp awaits).1 with ⟨execution, _, rfl⟩
  rfl

/-- Timers and inquiries each answer for the calls that are theirs. -/
theorem Attended.owned (attended : scheduler.Attended)
    (timers_nodup : (scheduler.timers.map Timer.name).Nodup) {pending : List Inquiry}
    (tickets_nodup : (pending.map (·.ticket)).Nodup)
    (inquiries : ∀ inquiry ∈ pending, inquiry.Minds scheduler.now)
    (answers : (scheduler.ledger.charges.filter (!·.owner == .timer)).Perm
      (pending.flatMap (·.awaited scheduler.now))) : scheduler.Owned pending where
  timers_nodup := timers_nodup
  tickets_nodup := tickets_nodup
  perm := (List.filter_append_perm _ _).symm.trans (attended.perm.append answers)
  nodup := by
    have ofTimers : scheduler.awaited.Nodup :=
      (timers_nodup.sublist attended.names_awaited_sublist).of_map Charge.name
    have ofInquiries : (pending.flatMap (·.awaited scheduler.now)).Nodup := by
      rw [List.nodup_flatMap]
      refine ⟨fun inquiry inquiry_mem => Inquiry.nodup_awaited (inquiries inquiry inquiry_mem), ?_⟩
      apply (List.pairwise_map.mp tickets_nodup).imp
      intro inquiry other unlike charge charge_mem other_mem
      apply unlike
      have sameOwner := (Inquiry.owner_of_mem_awaited charge_mem).symm.trans
        (Inquiry.owner_of_mem_awaited other_mem)
      exact Owner.inquiry.inj sameOwner
    apply ofTimers.append ofInquiries
    intro charge charge_mem other_mem
    rcases List.mem_flatMap.mp other_mem with ⟨inquiry, _, awaits⟩
    have sameOwner := (owner_of_mem_awaited charge_mem).symm.trans
      (Inquiry.owner_of_mem_awaited awaits)
    cases sameOwner
  timers := attended.minds
  inquiries := inquiries

namespace Owned

variable {pending : List Inquiry}

/-- A call under way has not reached its timeout. -/
theorem inTime (owned : scheduler.Owned pending) {run : Run}
    (run_mem : run ∈ scheduler.ledger.inFlight) :
    run.execution.calls = true ∧ run.execution.startedAt ≤ scheduler.now ∧
      scheduler.now < run.execution.startedAt + run.execution.options.timeout := by
  have lasts : scheduler.now < run.execution.endsAt := by
    have isOpen := (List.mem_filter.mp run_mem).2
    simp only [Run.isOpen, Bool.and_eq_true, decide_eq_true_eq] at isOpen
    exact isOpen.2
  have started : run.execution.startedAt ≤ scheduler.now := by
    have awaits := owned.perm.subset (List.mem_map_of_mem (f := Run.charge) run_mem)
    rcases List.mem_append.mp awaits with ofTimer | ofInquiry
    · rcases List.mem_flatMap.mp ofTimer with ⟨timer, timer_mem, awaited⟩
      rcases List.mem_map.mp (List.mem_filter.mp awaited).1 with ⟨execution, running, sameCharge⟩
      have sameExecution : execution = run.execution := congrArg Charge.execution sameCharge
      rw [← sameExecution]
      exact (owned.timers timer timer_mem execution (Option.mem_toList.mp running)).2
    · rcases List.mem_flatMap.mp ofInquiry with ⟨inquiry, inquiry_mem, awaited⟩
      rcases Inquiry.mem_awaited awaited with ⟨entry, entry_mem, sameCharge⟩
      have sameExecution : run.execution = entry.2 := congrArg Charge.execution sameCharge
      rw [sameExecution]
      exact ((owned.inquiries inquiry inquiry_mem).started entry entry_mem).2
  have ends_le : run.execution.endsAt ≤ run.execution.startedAt + run.execution.options.timeout :=
    Nat.add_le_add_left run.execution.elapsed_le_timeout _
  refine ⟨?_, started, Nat.lt_of_lt_of_le lasts ends_le⟩
  simp only [Execution.calls, decide_eq_true_eq]
  omega

end Owned

/-- The calls under way are accounted for: each has one that waits for it and has not reached its
timeout. So there are no more of them than timers and executions on demand that are not over. -/
structure Accounted (scheduler : Scheduler) (pending : List Inquiry) : Prop where
  owned : scheduler.Owned pending
  inTime : ∀ run ∈ scheduler.ledger.inFlight, run.execution.calls = true ∧
    run.execution.startedAt ≤ scheduler.now ∧
    scheduler.now < run.execution.startedAt + run.execution.options.timeout
  bounded : scheduler.ledger.inFlight.length ≤
    scheduler.timers.length + (pending.flatMap (·.awaited scheduler.now)).length

theorem Owned.accounted {pending : List Inquiry} (owned : scheduler.Owned pending)
    (attended : scheduler.Attended) : scheduler.Accounted pending where
  owned := owned
  inTime := fun _ run_mem => owned.inTime run_mem
  bounded := by
    have lengths := owned.perm.length_eq
    rw [Ledger.charges, List.length_map, waiting, List.length_append] at lengths
    have ofTimers := attended.names_awaited_sublist.length_le
    rw [List.length_map, List.length_map] at ofTimers
    omega

/-- Without inquiries, all that comes on record is started by timers. -/
theorem owner_of_mem_runs_run (ofTimers : ∀ run ∈ scheduler.ledger.runs, run.owner = .timer)
    {actions : List Action} (unasked : ∀ inquiry, .inquire inquiry ∉ actions) :
    ∀ run ∈ (scheduler.run actions).ledger.runs, run.owner = .timer := by
  induction actions generalizing scheduler with
  | nil => exact ofTimers
  | cons action rest ih =>
      apply ih
      · intro run run_mem
        rcases mem_runs_step run_mem with
          ⟨old, old_mem, sameCharge⟩ | ⟨owned, -⟩ | ⟨inquiry, rfl, -⟩
        · have sameOwner : old.owner = run.owner := congrArg Charge.owner sameCharge
          rw [← sameOwner]
          exact ofTimers old old_mem
        · exact owned
        · exact absurd List.mem_cons_self (unasked inquiry)
      · exact fun inquiry asked => unasked inquiry (List.mem_cons_of_mem _ asked)

theorem owned_run_of_unasked (start : Nat) {actions : List Action}
    (unasked : ∀ inquiry, .inquire inquiry ∉ actions) :
    ((startingAt start).run actions).Owned [] := by
  have orderly := (orderly_startingAt start).run actions
  have names_nodup := orderly.names_nodup
  rw [polled, List.map_map] at names_nodup
  refine ((attended_startingAt start).run actions).owned names_nodup List.nodup_nil ?_ ?_
  · exact fun inquiry inquiry_mem => absurd inquiry_mem List.not_mem_nil
  · rw [List.filter_eq_nil_iff.mpr]
    · exact List.Perm.nil
    · intro charge charge_mem
      rcases List.mem_map.mp charge_mem with ⟨run, run_mem, rfl⟩
      have ofTimers : ∀ run ∈ (startingAt start).ledger.runs, run.owner = .timer :=
        fun _ none => absurd none List.not_mem_nil
      have owned := owner_of_mem_runs_run ofTimers unasked run (List.mem_filter.mp run_mem).1
      simp [Run.charge, owned]

end Scheduler

end Vitals
