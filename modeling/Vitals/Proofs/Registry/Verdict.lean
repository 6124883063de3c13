import Vitals.Proofs.Aggregation
import Vitals.Proofs.Registry.Coherence
import Vitals.Proofs.Registry.Inquiries

/-!
# The verdict on a service

Criticality is looked up by the name in each result. That the look-up finds the registration which
the result comes from rests on two facts: an execution puts the registered name into its result,
whatever the probe calls itself, and no name is registered twice. The registrations are those of
the instant of the question; what changes while the executions last does not count.
-/

namespace Vitals

/-- The verdict on a call that is stopped after a timeout: what it returns in time, and unhealthy
if it fails, panics, or does not end in time. -/
def Behaviour.verdict (timeout : Nat) : Behaviour → Status
  | .ends delay (.returned result) => if delay < timeout then result.status else .unhealthy
  | _ => .unhealthy

theorem Execution.status_result (execution : Execution) :
    execution.result.status = execution.behaviour.verdict execution.options.timeout := by
  unfold result outcome? Behaviour.verdict
  cases execution.behaviour with
  | hangs => rfl
  | ends delay outcome =>
      by_cases inTime : delay < execution.options.timeout
      · cases outcome <;> simp [inTime, conclude, Result.unhealthy, Result.plain]
      · cases outcome <;> simp [inTime, timedOut, Result.unhealthy, Result.plain]

namespace Registry

/-- The verdict on the call that a check of a registration would make now. -/
def verdictOf (registry : Registry) (registration : Registration) : Status :=
  let call := registry.scheduler.ledger.callsStarted registration.options.name registration.serial
  (registration.probe call).verdict registration.options.timeout

variable {registry : Registry}

theorem mem_critical {name : String} :
    name ∈ (registry.inquiry .all).critical ↔
      ∃ registration ∈ registry.registrations,
        registration.options.critical = true ∧ registration.options.name = name := by
  simp only [Inquiry.critical, inquiry, concerned, List.filter_map, List.map_map, List.mem_map,
    List.mem_filter, Function.comp_def, and_assoc]

/-- Where names are registered once, the critical names are the names of critical registrations
only. -/
theorem name_mem_critical (nodup : registry.names.Nodup) {registration : Registration}
    (registration_mem : registration ∈ registry.registrations) :
    registration.options.name ∈ (registry.inquiry .all).critical ↔
      registration.options.critical = true := by
  rw [mem_critical]
  constructor
  · rintro ⟨other, other_mem, critical, sameName⟩
    rw [← List.inj_on_of_nodup_map nodup other_mem registration_mem sameName]
    exact critical
  · intro critical
    exact ⟨registration, registration_mem, critical, rfl⟩

theorem status_eq_unhealthy (nodup : registry.names.Nodup) :
    (registry.inquiry .all).status = .unhealthy ↔
      ∃ registration ∈ registry.registrations,
        registration.options.critical = true ∧ registry.verdictOf registration = .unhealthy := by
  rw [Inquiry.status, aggregate_eq_unhealthy, results_inquiry]
  constructor
  · rintro ⟨result, result_mem, failed, known⟩
    rcases List.mem_map.mp result_mem with ⟨registration, registration_mem, rfl⟩
    rw [Execution.status_result] at failed
    rw [Execution.name_result] at known
    exact ⟨registration, registration_mem, (name_mem_critical nodup registration_mem).mp known,
      failed⟩
  · rintro ⟨registration, registration_mem, critical, failed⟩
    refine ⟨_, List.mem_map_of_mem registration_mem, ?_, ?_⟩
    · rw [Execution.status_result]
      exact failed
    · rw [Execution.name_result]
      exact (name_mem_critical nodup registration_mem).mpr critical

/-- Criticality decides the verdict. After every run, and whatever happens while the executions
last, the report has one check for each registration of the instant of the question, under its
name and with the verdict on its probe. The service is unhealthy exactly if a critical
registration is, else degraded exactly if some check is not healthy. -/
theorem status_of_report (version : String) (created : Nat) (actions during : List Action)
    (system : Snapshot) :
    let registry := (create version created).run actions
    let inquiry := registry.inquiry .all
    let later := (registry.ask .all).run during
    let report := later.report system inquiry
    (.abandon inquiry.ticket ∉ during →
      (inquiry ∈ later.pending ↔ later.now < inquiry.endsAt) ∧
      later.scheduler.ledger.answersOf inquiry.ticket = inquiry.runs ∧
      (inquiry.endsAt ≤ later.now →
        ∀ run ∈ later.scheduler.ledger.answersOf inquiry.ticket,
          run.isOpen later.now = false ∧
            run.hasCompleted later.now = run.execution.completes)) ∧
    report.checks.map (fun check => (check.name, check.status)) =
      registry.registrations.map (fun registration =>
        (registration.options.name, registry.verdictOf registration)) ∧
    (report.status = .unhealthy ↔
      ∃ registration ∈ registry.registrations,
        registration.options.critical = true ∧ registry.verdictOf registration = .unhealthy) ∧
    (report.status = .degraded ↔
      report.status ≠ .unhealthy ∧ ∃ check ∈ report.checks, check.status ≠ .healthy) ∧
    (report.status = .healthy ↔ ∀ check ∈ report.checks, check.status = .healthy) := by
  intro registry inquiry later report
  have coherent : registry.Coherent := coherent_run version created actions
  have ticketed : registry.Ticketed := ticketed_run version created actions
  refine ⟨?_, ?_, status_eq_unhealthy coherent.names_nodup, aggregate_eq_degraded,
    aggregate_eq_healthy⟩
  · intro kept
    have undisturbed : later.Undisturbed inquiry := (Undisturbed.ask ticketed .all).run kept
    exact ⟨undisturbed.pending, undisturbed.answers,
      fun finished run run_mem => undisturbed.completed finished run_mem⟩
  · have checks : report.checks = registry.registrations.map fun registration =>
        (registry.executionOf registration).result := results_inquiry
    rw [checks, List.map_map]
    apply List.map_congr_left
    intro registration _
    rw [Function.comp_apply, Execution.name_result, Execution.status_result, executionOf_eq]
    rfl

theorem status_of_misreporting_probe :
    let probe : Probe := fun _ => .ends 5 (.returned (.unhealthy "cache" "down"))
    let registry := (create "1.0.0" 0).run [.register ⟨"db", 1000, true, none⟩ probe]
    let inquiry := registry.inquiry .all
    let later := (registry.ask .all).run [.unregister "db", .advance 10]
    inquiry ∉ later.pending ∧ (later.report default inquiry).status = .unhealthy := by
  intro probe registry inquiry later
  have verdict := status_of_report "1.0.0" 0 [.register ⟨"db", 1000, true, none⟩ probe]
    [.unregister "db", .advance 10] default
  constructor
  · rw [(verdict.1 (by simp)).1]
    decide +kernel
  · have registrations : registry.registrations =
        [⟨0, ⟨"db", 1000, true, none⟩, probe⟩] := rfl
    have registration_mem : ⟨0, ⟨"db", 1000, true, none⟩, probe⟩ ∈ registry.registrations := by
      simp [registrations]
    exact verdict.2.2.1.mpr ⟨_, registration_mem, rfl, rfl⟩

end Registry

end Vitals
