import Vitals.Proofs.Polling.Effects
import Vitals.Proofs.Registry.Runs

/-!
# Inquiries under way

An inquiry is settled when it is asked: it keeps the registrations of that instant, and each of
them with an execution of its own. Nothing that happens to the registry afterwards reaches these
executions, short of giving up the inquiry itself; for a ticket is given out once, and what stops
a timer cancels the executions of timers only.
-/

namespace Vitals

namespace Ledger

variable (ledger : Ledger) (ticket : Nat)

/-- The executions that an inquiry waits for. -/
def answersOf : List Run := ledger.runs.filter (·.owner == .inquiry ticket)

theorem answersOf_cancel (concerns : Run → Bool) :
    (ledger.cancel concerns).answersOf ticket =
      (ledger.answersOf ticket).map (ledger.strike concerns) := by
  apply ledger.filter_runs_cancel concerns
  intro run
  rw [owner_strike]

theorem answersOf_cancel_of_foreign {concerns : Run → Bool}
    (foreign : ∀ run, run.owner = .inquiry ticket → concerns run = false) :
    (ledger.cancel concerns).answersOf ticket = ledger.answersOf ticket := by
  apply ledger.filter_runs_cancel_of_untouched concerns
  · intro run
    rw [owner_strike]
  · intro run run_mem
    have owned : run.owner = .inquiry ticket := by simpa using (List.mem_filter.mp run_mem).2
    exact ledger.strike_of_unconcerned concerns (foreign run owned)

end Ledger

namespace Inquiry

variable {inquiry : Inquiry}

theorem endsAt_le {execution : Execution} (execution_mem : execution ∈ inquiry.executions) :
    execution.endsAt ≤ inquiry.endsAt := by
  have ends_mem : execution.endsAt ∈ inquiry.executions.map Execution.endsAt :=
    List.mem_map_of_mem execution_mem
  rw [endsAt, List.foldl_max_eq_max (List.ne_nil_of_mem ends_mem)]
  exact Nat.le_trans (List.le_max_of_mem ends_mem) (Nat.le_max_right _ _)

theorem owner_of_mem_runs {run : Run} (run_mem : run ∈ inquiry.runs) :
    run.owner = .inquiry inquiry.ticket := by
  rcases List.mem_map.mp run_mem with ⟨entry, _, rfl⟩
  rfl

end Inquiry

namespace Scheduler

variable {scheduler : Scheduler} {ticket : Nat}

theorem Passage.answersOf_eq {next : Scheduler} {history : List Delivery}
    (passage : scheduler.Passage next history) :
    next.ledger.answersOf ticket = scheduler.ledger.answersOf ticket := by
  rcases passage with ⟨milliseconds, courseOf, isOf⟩
  simp only [Ledger.answersOf, runs_follow, List.filter_append, List.append_right_eq_self,
    List.filter_eq_nil_iff]
  intro run run_mem
  simp [(scheduler.mem_runs_follow isOf run_mem).1]

/-- No step but giving up an inquiry reaches its executions. -/
theorem answersOf_step {action : Action} (kept : action ≠ .abandon ticket)
    (unasked : ∀ inquiry, action = .inquire inquiry → inquiry.ticket ≠ ticket) :
    (scheduler.step action).ledger.answersOf ticket = scheduler.ledger.answersOf ticket := by
  cases action with
  | start options probe =>
      rw [step, ledger_launch]
      apply Ledger.answersOf_cancel_of_foreign
      intro run owned
      simp [owned]
  | stop name =>
      apply Ledger.answersOf_cancel_of_foreign
      intro run owned
      simp [owned]
  | stopAll =>
      apply Ledger.answersOf_cancel_of_foreign
      intro run owned
      simp [owned]
  | drop =>
      apply Ledger.answersOf_cancel_of_foreign
      intro run owned
      simp [owned]
  | inquire inquiry =>
      apply Ledger.filter_runs_record
      intro run run_mem
      have unlike := unasked inquiry rfl
      simpa [Inquiry.owner_of_mem_runs run_mem] using unlike
  | abandon other =>
      apply Ledger.answersOf_cancel_of_foreign
      intro run owned
      have unlike : ticket ≠ other := by
        rintro rfl
        exact kept rfl
      simpa [owned] using unlike
  | advance milliseconds => exact (scheduler.passage_advance milliseconds).answersOf_eq
  | pass milliseconds turns => exact (scheduler.passage_pass milliseconds turns).answersOf_eq

/-- A ticket that nobody has asked with has no executions, and a step gives it none. -/
theorem answersOf_step_eq_nil {action : Action}
    (unasked : ∀ inquiry, action = .inquire inquiry → inquiry.ticket ≠ ticket)
    (empty : scheduler.ledger.answersOf ticket = []) :
    (scheduler.step action).ledger.answersOf ticket = [] := by
  cases action with
  | abandon other =>
      rw [step, Ledger.answersOf_cancel, empty]
      rfl
  | _ => rw [answersOf_step (by simp) unasked, empty]

end Scheduler

namespace Registry

theorem results_inquiry {registry : Registry} :
    (registry.inquiry .all).results =
      registry.registrations.map fun registration =>
        (registry.executionOf registration).result := by
  simp only [Inquiry.results, Inquiry.executions, inquiry, concerned, List.map_map,
    Function.comp_def]

/-- Each question takes a ticket, and nothing else does. -/
theorem asked_step (registry : Registry) (action : Action) :
    (registry.step action).asked =
      registry.asked + match action with
        | .ask _ => 1
        | _ => 0 := by
  cases action with
  | register options probe =>
      rw [step_register]
      split <;> rfl
  | destroy =>
      rw [step, destroy]
      split <;> rfl
  | _ => rfl

theorem asked_le_step (registry : Registry) (action : Action) :
    registry.asked ≤ (registry.step action).asked := by
  rw [asked_step]
  exact Nat.le_add_right _ _

theorem answersOf_step {registry : Registry} {action : Action} {ticket : Nat}
    (kept : action ≠ .abandon ticket) (asked : ticket < registry.asked) :
    (registry.step action).scheduler.ledger.answersOf ticket =
      registry.scheduler.ledger.answersOf ticket := by
  rw [scheduler_step]
  rcases registry.stepOrders_eq action with idle | ⟨order, single, caused⟩
  · rw [idle]
    rfl
  · rw [single]
    apply Scheduler.answersOf_step
    · rintro rfl
      cases caused
      exact kept rfl
    · rintro inquiry rfl
      cases caused
      exact Nat.ne_of_gt asked

/-- The tickets of all inquiries so far lie below the next one. -/
structure Ticketed (registry : Registry) : Prop where
  answers : ∀ ticket, registry.asked ≤ ticket →
    registry.scheduler.ledger.answersOf ticket = []
  pending : ∀ inquiry ∈ registry.pending, inquiry.ticket < registry.asked

theorem ticketed_create (version : String) (created : Nat) :
    (create version created).Ticketed where
  answers := fun _ _ => rfl
  pending := fun _ inquiry_mem => absurd inquiry_mem List.not_mem_nil

theorem mem_pending_step {registry : Registry} {action : Action} {inquiry : Inquiry}
    (inquiry_mem : inquiry ∈ (registry.step action).pending) :
    inquiry ∈ registry.pending ∨ ∃ question, action = .ask question ∧
      inquiry = registry.inquiry question := by
  cases action with
  | register options probe =>
      rw [step_register] at inquiry_mem
      split at inquiry_mem <;> exact Or.inl inquiry_mem
  | destroy =>
      rw [step, destroy] at inquiry_mem
      split at inquiry_mem <;> exact Or.inl inquiry_mem
  | unregister name => exact Or.inl inquiry_mem
  | ask question =>
      simp only [step, ask] at inquiry_mem
      split at inquiry_mem
      · rcases List.mem_append.mp inquiry_mem with old | new
        · exact Or.inl old
        · exact Or.inr ⟨question, rfl, List.mem_singleton.mp new⟩
      · exact Or.inl inquiry_mem
  | _ => exact Or.inl (List.mem_filter.mp inquiry_mem).1

theorem Ticketed.step {registry : Registry} (ticketed : registry.Ticketed) (action : Action) :
    (registry.step action).Ticketed where
  answers := by
    intro ticket unused
    have empty := ticketed.answers ticket (Nat.le_trans (registry.asked_le_step action) unused)
    rw [scheduler_step]
    rcases registry.stepOrders_eq action with idle | ⟨order, single, caused⟩
    · rw [idle]
      exact empty
    · rw [single]
      apply Scheduler.answersOf_step_eq_nil _ empty
      rintro inquiry rfl
      cases caused
      exact Nat.ne_of_lt (Nat.lt_of_succ_le unused)
  pending := by
    intro inquiry inquiry_mem
    rcases mem_pending_step inquiry_mem with old | ⟨question, rfl, rfl⟩
    · exact Nat.lt_of_lt_of_le (ticketed.pending inquiry old) (registry.asked_le_step action)
    · exact Nat.lt_succ_self _

theorem ticketed_run (version : String) (created : Nat) (actions : List Action) :
    ((create version created).run actions).Ticketed :=
  run_induction Ticketed (ticketed_create version created)
    (fun _ action ticketed => ticketed.step action) actions

/-- An inquiry has all its executions on record as they were started, and it is waited for until
the last of them is over. -/
structure Undisturbed (registry : Registry) (inquiry : Inquiry) : Prop where
  asked : inquiry.ticket < registry.asked
  answers : registry.scheduler.ledger.answersOf inquiry.ticket = inquiry.runs
  pending : inquiry ∈ registry.pending ↔ registry.now < inquiry.endsAt

namespace Undisturbed

variable {registry : Registry} {inquiry : Inquiry}

theorem ask (ticketed : registry.Ticketed) (question : Question) :
    (registry.ask question).Undisturbed (registry.inquiry question) where
  asked := Nat.lt_succ_self _
  answers := by
    have all : (registry.inquiry question).runs.filter
        (·.owner == .inquiry (registry.inquiry question).ticket) =
          (registry.inquiry question).runs := by
      rw [List.filter_eq_self]
      intro run run_mem
      simp [Inquiry.owner_of_mem_runs run_mem]
    have unused : registry.scheduler.ledger.runs.filter
        (·.owner == .inquiry (registry.inquiry question).ticket) = [] :=
      ticketed.answers registry.asked (Nat.le_refl _)
    simp only [Registry.ask, Ledger.answersOf, Ledger.runs_record, List.filter_append, all, unused,
      List.nil_append]
  pending := by
    -- Without its ticket, an inquiry could be taken for an equal one that still waits.
    have new : registry.inquiry question ∉ registry.pending := fun old =>
      Nat.lt_irrefl _ (ticketed.pending _ old)
    have sameNow : (registry.ask question).now = registry.now := rfl
    rw [sameNow]
    simp only [Registry.ask]
    split
    · next waits => simp [waits]
    · next finished => simp [finished, new]

/-- Time goes on, and what is over is waited for no longer. -/
theorem pending_filter (undisturbed : registry.Undisturbed inquiry) (milliseconds : Nat) :
    inquiry ∈ registry.pending.filter (fun other =>
        decide (registry.now + milliseconds < other.endsAt)) ↔
      registry.now + milliseconds < inquiry.endsAt := by
  rw [List.mem_filter, undisturbed.pending, decide_eq_true_eq, and_iff_right_iff_imp]
  exact Nat.lt_of_le_of_lt (Nat.le_add_right _ _)

theorem pending_step (undisturbed : registry.Undisturbed inquiry) {action : Action}
    (kept : action ≠ .abandon inquiry.ticket) :
    inquiry ∈ (registry.step action).pending ↔ (registry.step action).now < inquiry.endsAt := by
  cases action with
  | register options probe =>
      rw [step_register]
      split
      · rw [now, enter, Scheduler.now, Scheduler.ledger_launch]
        exact undisturbed.pending
      · exact undisturbed.pending
  | destroy =>
      rw [Registry.step, destroy]
      split <;> exact undisturbed.pending
  | unregister name => exact undisturbed.pending
  | ask question =>
      have unlike : inquiry ≠ registry.inquiry question := by
        intro same
        have asked := undisturbed.asked
        rw [same] at asked
        exact Nat.lt_irrefl _ asked
      have sameNow : (registry.ask question).now = registry.now := rfl
      rw [Registry.step, sameNow, ← undisturbed.pending, Registry.ask]
      split
      · simp [unlike]
      · rfl
  | abandon ticket =>
      have unlike : inquiry.ticket ≠ ticket := by
        rintro rfl
        exact kept rfl
      have sameNow : (registry.abandon ticket).now = registry.now := rfl
      rw [Registry.step, sameNow, ← undisturbed.pending]
      simp [abandon, unlike]
  | advance milliseconds => exact undisturbed.pending_filter milliseconds
  | pass milliseconds turns => exact undisturbed.pending_filter milliseconds

theorem step (undisturbed : registry.Undisturbed inquiry) {action : Action}
    (kept : action ≠ .abandon inquiry.ticket) : (registry.step action).Undisturbed inquiry where
  asked := Nat.lt_of_lt_of_le undisturbed.asked (registry.asked_le_step action)
  answers := (answersOf_step kept undisturbed.asked).trans undisturbed.answers
  pending := undisturbed.pending_step kept

theorem run (undisturbed : registry.Undisturbed inquiry) {actions : List Action}
    (kept : .abandon inquiry.ticket ∉ actions) : (registry.run actions).Undisturbed inquiry := by
  induction actions generalizing registry with
  | nil => exact undisturbed
  | cons action rest ih =>
      rw [List.mem_cons, not_or] at kept
      exact ih (undisturbed.step (Ne.symm kept.1)) kept.2

/-- When the last execution is over, each call of the inquiry has come to its own end, except for
those that were stopped by their timeout. -/
theorem completed (undisturbed : registry.Undisturbed inquiry)
    (finished : inquiry.endsAt ≤ registry.now) {run : Run}
    (run_mem : run ∈ registry.scheduler.ledger.answersOf inquiry.ticket) :
    run.isOpen registry.now = false ∧
      run.hasCompleted registry.now = run.execution.completes := by
  rw [undisturbed.answers] at run_mem
  rcases List.mem_map.mp run_mem with ⟨entry, entry_mem, rfl⟩
  have ended : entry.2.endsAt ≤ registry.now :=
    Nat.le_trans (Inquiry.endsAt_le (List.mem_map_of_mem entry_mem)) finished
  have closed : ¬registry.now < entry.2.endsAt := Nat.not_lt.mpr ended
  simp [Run.isOpen, Run.hasCompleted, ended, closed]

end Undisturbed

end Registry

end Vitals
