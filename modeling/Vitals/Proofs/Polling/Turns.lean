import Vitals.Polling.Timer

/-!
# Turns of a timer

A timer does one thing at a time: it starts the execution that answers a tick, or it takes the
result of an execution that has ended. Either is a turn. `Timer.proceed` lets a timer take a
number of turns at most, so every moment between two turns is a state of its own: the timer waits
for a tick, is in the middle of a call, or has not yet taken the result of a call that is over.
The course of `Timer.advance` takes every turn that is due.
-/

namespace Vitals.Timer

/-- The course of a timer that takes at most `turns` of the turns that are due up to and including
the instant `horizon`. -/
def proceed (horizon : Nat) : (turns calls : Nat) → Timer → Course
  | 0, _, timer => ⟨timer, [], []⟩
  | turns + 1, calls, timer =>
      match timer.running with
      | some execution =>
          if execution.endsAt ≤ horizon then
            let course := proceed horizon turns calls (timer.finish execution)
            { course with ended := execution :: course.ended }
          else ⟨timer, [], []⟩
      | none =>
          if 0 < timer.period ∧ timer.handlesAt ≤ horizon then
            let execution := timer.nextExecution calls
            let course := proceed horizon turns (if execution.calls then calls + 1 else calls)
              (timer.begin calls)
            { course with started := ⟨timer.due, execution⟩ :: course.started }
          else ⟨timer, [], []⟩

variable {horizon turns calls : Nat} {timer : Timer} {execution : Execution}

theorem workload_finish_lt (horizon : Nat) (running : timer.running = some execution) :
    (timer.finish execution).workload horizon < timer.workload horizon := by
  simp [workload, finish, running]

theorem workload_begin_lt (calls : Nat) (running : timer.running = none)
    (period_pos : 0 < timer.period) (reached : timer.handlesAt ≤ horizon) :
    (timer.begin calls).workload horizon < timer.workload horizon := by
  have later := @Schedule.lt_nextTick timer.period timer.due timer.handlesAt period_pos
  have due_le : timer.due ≤ horizon := Nat.le_trans (Nat.le_max_left _ _) reached
  simp only [workload, begin, running, Option.isSome_some, Option.isSome_none, if_true,
    Bool.false_eq_true, if_false]
  omega

theorem advance_of_running (running : timer.running = some execution) :
    timer.advance horizon calls =
      if execution.endsAt ≤ horizon then
        let course := (timer.finish execution).advance horizon calls
        { course with ended := execution :: course.ended }
      else ⟨timer, [], []⟩ := by
  rw [advance]
  split
  · next other sameRunning =>
      obtain rfl : execution = other := Option.some.inj (running.symm.trans sameRunning)
      rfl
  · next idle => simp [running] at idle

theorem advance_of_idle (idle : timer.running = none) :
    timer.advance horizon calls =
      if 0 < timer.period ∧ timer.handlesAt ≤ horizon then
        let execution := timer.nextExecution calls
        let course := (timer.begin calls).advance horizon
          (if execution.calls then calls + 1 else calls)
        { course with started := ⟨timer.due, execution⟩ :: course.started }
      else ⟨timer, [], []⟩ := by
  rw [advance]
  split
  · next execution running => simp [idle] at running
  · rfl

/-- A timer that may take as many turns as it has work goes through its whole course. -/
theorem proceed_eq_advance (enough : timer.workload horizon ≤ turns) :
    timer.proceed horizon turns calls = timer.advance horizon calls := by
  induction turns generalizing calls timer with
  | zero =>
      cases running : timer.running with
      | some execution =>
          exfalso
          simp [workload, running] at enough
      | none =>
          have unreached : ¬(0 < timer.period ∧ timer.handlesAt ≤ horizon) := by
            rintro ⟨-, reached⟩
            have := Nat.le_trans (Nat.le_max_left timer.due timer.idleSince) reached
            simp only [workload] at enough
            omega
          rw [advance_of_idle running, if_neg unreached]
          rfl
  | succ turns ih =>
      cases running : timer.running with
      | some execution =>
          have less := workload_finish_lt horizon running
          rw [advance_of_running running, ← ih (by omega)]
          simp only [proceed, running]
      | none =>
          rw [advance_of_idle running]
          simp only [proceed, running]
          split
          · next ready =>
              have less := workload_begin_lt calls running ready.1 ready.2
              rw [ih (by omega)]
          · rfl

/-- A course that a timer can go through: it keeps its registration and its period, and whatever
it starts it starts for its registration. -/
structure Course.IsOf (timer : Timer) (course : Course) : Prop where
  registration : course.timer.registration = timer.registration
  period : course.timer.period = timer.period
  options : ∀ tick ∈ course.started, tick.execution.options = timer.registration.options

theorem Course.isOf_proceed (horizon turns calls : Nat) (timer : Timer) :
    (timer.proceed horizon turns calls).IsOf timer := by
  induction turns generalizing calls timer with
  | zero => exact ⟨rfl, rfl, by simp [proceed]⟩
  | succ turns ih =>
      unfold proceed
      split
      · next execution running =>
          split
          · have rest := ih calls (timer.finish execution)
            exact ⟨rest.registration, rest.period, rest.options⟩
          · exact ⟨rfl, rfl, by simp⟩
      · split
        · have rest := ih (if (timer.nextExecution calls).calls then calls + 1 else calls)
            (timer.begin calls)
          refine ⟨rest.registration, rest.period, ?_⟩
          intro tick tick_mem
          rcases List.mem_cons.mp tick_mem with rfl | later
          · rfl
          · exact rest.options tick later
        · exact ⟨rfl, rfl, by simp⟩

theorem Course.isOf_advance (horizon calls : Nat) (timer : Timer) :
    (timer.advance horizon calls).IsOf timer := by
  rw [← proceed_eq_advance (Nat.le_refl _)]
  exact isOf_proceed horizon _ calls timer

end Vitals.Timer
