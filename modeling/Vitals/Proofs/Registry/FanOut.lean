import Mathlib.Data.List.Induction
import Vitals.Proofs.Execution.Race
import Vitals.Proofs.Registry.Coherence
import Vitals.Proofs.Registry.Inquiries

/-!
# A check of everything is the check of each alone

What a check of everything reports about a registration is the result of executing its next call
alone, from the instant of the question on: nothing that the others do shows in it, nor anything
that happens to the registry while the executions last. They run side by side, so the whole takes as
long as the longest of them.
-/

namespace Vitals

/-- The longest duration of some checks. -/
def longest (checks : List Result) : Duration :=
  ⟨(checks.map (·.duration.nanos)).foldl max 0⟩

/-- What commutes with the larger of two numbers commutes with the largest of many. -/
theorem foldl_max_map (change : Nat → Nat)
    (commutes : ∀ left right, max (change left) (change right) = change (max left right))
    (least : Nat) (numbers : List Nat) :
    (numbers.map change).foldl max (change least) = change (numbers.foldl max least) := by
  rw [List.foldl_map]
  exact List.foldl_hom change fun _ _ => commutes _ _

/-- How far a run has come, told by the duration that its result claims. -/
theorem Run.passed_iff {run : Run} {now : Nat} (uncancelled : run.cancelledAt = none)
    (le : run.execution.startedAt ≤ now) :
    let passed := Duration.ofMillis (now - run.execution.startedAt)
    (run.isOpen now = true ↔ passed.nanos < run.execution.result.duration.nanos) ∧
      (run.hasCompleted now = true ↔ run.execution.completes = true ∧
        run.execution.result.duration.nanos ≤ passed.nanos) := by
  have ends : run.execution.endsAt = run.execution.startedAt + run.execution.elapsed := rfl
  simp only [isOpen, hasCompleted, uncancelled, Option.isNone_none, Bool.true_and,
    Bool.and_eq_true, decide_eq_true_eq, Execution.duration_result, Duration.ofMillis, ends]
  constructor
  · omega
  · rw [and_congr_right_iff]
    omega

namespace Registry

variable {registry : Registry}

/-- A registry of the same instant in which a probe is alone. Of the calls of the probe, those that
it has had are left out. -/
def alone (registry : Registry) (registration : Registration) : Registry :=
  let calls := registry.scheduler.ledger.callsStarted registration.options.name registration.serial
  (create registry.version registry.now).step
    (.register registration.options fun call => registration.probe (calls + call))

/-- Whatever is registered after a run was registered in it, and its options break no rule, for
otherwise it would have been refused. -/
theorem accepted_of_run (version : String) (created : Nat) (actions : List Action) :
    ∀ registration ∈ ((create version created).run actions).registrations,
      registration.options.fault? = none ∧
        .register registration.options registration.probe ∈ actions := by
  induction actions using List.reverseRecOn with
  | nil =>
      intro registration registration_mem
      exact absurd registration_mem List.not_mem_nil
  | append_singleton earlier last ih =>
      intro registration registration_mem
      have old (before : registration ∈ ((create version created).run earlier).registrations) :
          registration.options.fault? = none ∧
            .register registration.options registration.probe ∈ earlier ++ [last] :=
        ⟨(ih registration before).1, List.mem_append_left _ (ih registration before).2⟩
      rw [run_concat] at registration_mem
      cases last with
      | register options probe =>
          rw [step_register] at registration_mem
          split at registration_mem
          · next accepted =>
              have coherent := coherent_run version created earlier
              rcases (mem_place coherent.names_nodup).mp registration_mem with rfl | ⟨before, -⟩
              · simp only [accepts, Bool.and_eq_true, Option.isNone_iff_eq_none] at accepted
                exact ⟨accepted.1, List.mem_append_right _ (List.mem_singleton_self _)⟩
              · exact old before
          · exact old registration_mem
      | unregister name => exact old (List.mem_filter.mp registration_mem).1
      | destroy =>
          rw [step, destroy] at registration_mem
          split at registration_mem
          · exact old registration_mem
          · exact absurd registration_mem List.not_mem_nil
      | _ => exact old registration_mem

/-- Alone, a probe is executed as it is among others. -/
theorem executions_alone {registration : Registration}
    (faultless : registration.options.fault? = none) :
    ((registry.alone registration).inquiry (.one registration.options.name)).executions =
      [registry.executionOf registration] := by
  have accepted : (create registry.version registry.now).accepts registration.options = true := by
    rw [accepts, faultless]
    rfl
  rw [alone, step_register, if_pos accepted]
  -- The probe goes on counting its calls where the registry has left it.
  generalize shifted_eq : (fun call => registration.probe
    (registry.scheduler.ledger.callsStarted registration.options.name registration.serial +
      call)) = shifted
  generalize enter_eq : (create registry.version registry.now).enter registration.options shifted =
    single
  have found : single.find? registration.options.name =
      some ⟨0, registration.options, shifted⟩ := by
    rw [← enter_eq]
    simp [find?, enter, create, place, Ledger.registration, Scheduler.startingAt,
      Ledger.startingAt]
  have unused : single.scheduler.ledger.runs = [] := by
    rw [← enter_eq, enter, Scheduler.ledger_launch]
    rfl
  have sameNow : single.now = registry.now := by
    rw [← enter_eq, now, enter, Scheduler.now, Scheduler.ledger_launch]
    rfl
  simp only [Inquiry.executions, inquiry, concerned, found, Option.toList_some, List.map_cons,
    List.map_nil, executionOf, Ledger.callsStarted, unused, List.countP_nil, sameNow, ← shifted_eq,
    Nat.add_zero]

theorem resultFor_alone {registration : Registration}
    (faultless : registration.options.fault? = none) :
    ((registry.alone registration).inquiry (.one registration.options.name)).resultFor
        registration.options.name =
      (registry.executionOf registration).result := by
  rw [Inquiry.resultFor, Inquiry.results, executions_alone faultless]
  rfl

/-- All executions start at the instant of the question, so the last one to end is the longest. -/
theorem endsAt_inquiry :
    (registry.inquiry .all).endsAt =
      registry.now + ((registry.inquiry .all).executions.map (·.elapsed)).foldl max 0 := by
  have ends : (registry.inquiry .all).executions.map Execution.endsAt =
      ((registry.inquiry .all).executions.map (·.elapsed)).map (registry.now + ·) := by
    simp only [Inquiry.executions, inquiry, List.map_map]
    rfl
  rw [Inquiry.endsAt, ends]
  exact foldl_max_map (registry.now + ·) (fun _ _ => Nat.add_max_add_left _ _ _) 0 _

/-- A check of everything is over when its longest check is. -/
theorem lt_endsAt_inquiry {instant : Nat} (le : registry.now ≤ instant) :
    instant < (registry.inquiry .all).endsAt ↔
      (Duration.ofMillis (instant - registry.now)).nanos <
        (longest (registry.inquiry .all).results).nanos := by
  have durations : (registry.inquiry .all).results.map (·.duration.nanos) =
      ((registry.inquiry .all).executions.map (·.elapsed)).map (· * 1000000) := by
    rw [Inquiry.results, List.map_map, List.map_map]
    apply List.map_congr_left
    intro execution _
    exact congrArg Duration.nanos (Execution.duration_result execution)
  have nanos : (longest (registry.inquiry .all).results).nanos =
      ((registry.inquiry .all).executions.map (·.elapsed)).foldl max 0 * 1000000 := by
    rw [longest, durations]
    exact foldl_max_map (· * 1000000) (fun _ _ => Nat.mul_max_mul_right _ _ _) 0 _
  rw [endsAt_inquiry, nanos]
  simp only [Duration.ofMillis]
  omega

/-- A check of everything gives one check for each registration of the instant of the question, in
their order: the result of the next call of its probe, executed at this instant under its options.
It is what the probe gives in a registry of its own, and what the race of the call and its timeout
comes to if the timer is punctual. So it stands on record, whatever happens to the registry
meanwhile: each execution lasts as long as its check says, and the check of everything lasts as long
as the longest of them. -/
theorem checks_of_report (alarm : Alarm) (version : String) (created : Nat)
    (actions during : List Action) (system : Snapshot) :
    let registry := (create version created).run actions
    let inquiry := registry.inquiry .all
    let later := (registry.ask .all).run during
    let report := later.report system inquiry
    let passed := Duration.ofMillis (later.now - registry.now)
    let execution (registration : Registration) : Execution :=
      { options := registration.options
        behaviour := registration.probe
          (registry.scheduler.ledger.callsStarted registration.options.name registration.serial)
        startedAt := registry.now }
    (∀ registration ∈ registry.registrations,
      alarm.Punctual registry.now registration.options.timeout) →
    .abandon inquiry.ticket ∉ during →
      registry.names.Nodup ∧
      report.checks.map (·.name) = registry.names ∧
      report.checks = registry.registrations.map (fun registration =>
        (execution registration).result) ∧
      report.checks = registry.registrations.map (fun registration =>
        ((registry.alone registration).inquiry (.one registration.options.name)).resultFor
          registration.options.name) ∧
      (∀ registration ∈ registry.registrations, ∀ events race,
        (execution registration).behaviour.delay ≠ registration.options.timeout →
        (Race.start alarm (execution registration)).run events = some race →
        .abandon ∉ events → (execution registration).elapsed + 2 ≤ events.length →
          race.waiter = .answered (registry.now + (execution registration).elapsed)
            (execution registration).result) ∧
      (later.scheduler.ledger.answersOf inquiry.ticket).map (·.execution) =
        registry.registrations.map execution ∧
      (∀ run ∈ later.scheduler.ledger.answersOf inquiry.ticket,
        (run.isOpen later.now = true ↔
          passed.nanos < run.execution.result.duration.nanos) ∧
        (run.hasCompleted later.now = true ↔ run.execution.completes = true ∧
          run.execution.result.duration.nanos ≤ passed.nanos)) ∧
      (inquiry ∈ later.pending ↔ passed.nanos < (longest report.checks).nanos) := by
  intro registry inquiry later report passed execution punctual kept
  have coherent : registry.Coherent := coherent_run version created actions
  have ticketed : registry.Ticketed := ticketed_run version created actions
  have undisturbed : later.Undisturbed inquiry := (Undisturbed.ask ticketed .all).run kept
  have le : registry.now ≤ later.now := by
    have later_eq : later.scheduler =
        registry.scheduler.run (registry.orders (.ask .all :: during)) :=
      scheduler_run registry (.ask .all :: during)
    rw [now, now, later_eq]
    exact Scheduler.now_le_run _ _
  have executed (registration : Registration) :
      registry.executionOf registration = execution registration :=
    registry.executionOf_eq registration
  have checks : report.checks = registry.registrations.map fun registration =>
      (execution registration).result := by
    rw [← funext executed]
    exact results_inquiry
  refine ⟨coherent.names_nodup, ?_, checks, ?_, ?_, ?_, ?_, ?_⟩
  · rw [checks, List.map_map]
    apply List.map_congr_left
    intro registration _
    exact Execution.name_result _
  · rw [checks]
    apply List.map_congr_left
    intro registration registration_mem
    rw [← executed]
    exact (resultFor_alone
      (accepted_of_run version created actions registration registration_mem).1).symm
  · intro registration registration_mem events race untied happen waited many
    exact Race.answered_of_long (punctual registration registration_mem) untied waited happen many
  · rw [undisturbed.answers, Inquiry.runs, ← funext executed, List.map_map]
    exact List.map_map
  · intro run run_mem
    rw [undisturbed.answers] at run_mem
    rcases List.mem_map.mp run_mem with ⟨entry, entry_mem, rfl⟩
    rcases List.mem_map.mp entry_mem with ⟨registration, _, rfl⟩
    exact Run.passed_iff rfl le
  · rw [undisturbed.pending]
    exact lt_endsAt_inquiry le

theorem checks_of_hanging_probe :
    let registry := (create "1.0.0" 0).run
      [.register ⟨"db", 40, true, none⟩ fun _ => .hangs,
        .register ⟨"api", 100, false, some 10⟩ fun call => .ends (5 + call) (.failed "down" [])]
    let inquiry := registry.inquiry .all
    let later := (registry.ask .all).run [.unregister "db", .pass 30 fun _ => 2, .abandon 7]
    let report := later.report default inquiry
    (∀ registration ∈ registry.registrations,
      Alarm.ofClock.Punctual registry.now registration.options.timeout) ∧
    report.checks.map (·.name) = ["db", "api"] ∧
    report.checks.map (·.message) = [some "probe 'db' timed out after 40ms", some "down"] ∧
    inquiry ∈ later.pending := by
  intro registry inquiry later report
  have punctual : ∀ registration ∈ registry.registrations,
      Alarm.ofClock.Punctual registry.now registration.options.timeout := by
    have told : ∀ registration ∈ registry.registrations,
        Schedule.tells 1000 (registry.now + registration.options.timeout) = true := by
      decide +kernel
    intro registration registration_mem
    exact Alarm.punctual_ofClock (told registration registration_mem)
  have first : inquiry.ticket = 0 := rfl
  have kept : Action.abandon inquiry.ticket ∉
      [.unregister "db", .pass 30 fun _ => 2, .abandon 7] := by simp [first]
  have checks := checks_of_report .ofClock "1.0.0" 0
    [.register ⟨"db", 40, true, none⟩ fun _ => .hangs,
      .register ⟨"api", 100, false, some 10⟩ fun call => .ends (5 + call) (.failed "down" [])]
    [.unregister "db", .pass 30 fun _ => 2, .abandon 7] default punctual kept
  refine ⟨punctual, ?_, ?_, ?_⟩
  · rw [checks.2.1]
    decide +kernel
  · rw [checks.2.2.1]
    decide +kernel
  · rw [checks.2.2.2.2.2.2.2]
    decide +kernel

end Registry

end Vitals
