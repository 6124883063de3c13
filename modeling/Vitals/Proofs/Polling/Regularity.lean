import Mathlib.Data.List.Perm.Subperm
import Mathlib.Order.Bounds.Basic
import Vitals.Proofs.Polling.Timers

/-!
# Regularity of ticks

The ticks that a timer answers lie on the grid of its period that begins with its first tick, each
one behind the one before. The invariant speaks of the next tick as well, since it is settled as
soon as a tick is handled, from how late that was: a tick that is late by no more than the tolerance
is followed by the very next point of the grid, even if that has passed too. With a short period
several late ticks can so be answered one right after the other, but the next tick always moves
forward, and executions wait for each other. A timer whose executions take a period at most never
gets late.
-/

namespace Vitals

namespace Schedule

variable {unit now period due handled : Nat}

/-- The next tick is a point of the grid behind the last one. -/
theorem nextTick_eq (reached : due ≤ handled) :
    ∃ steps, 0 < steps ∧ nextTick period due handled = due + steps * period := by
  unfold nextTick
  split
  · exact ⟨1, Nat.one_pos, by rw [Nat.one_mul]⟩
  · refine ⟨(handled - due) / period + 1, Nat.succ_pos _, ?_⟩
    have whole := Nat.div_add_mod (handled - due) period
    rw [Nat.add_mul, Nat.one_mul, Nat.mul_comm (_ / _) period]
    omega

theorem nextTick_le (reached : due ≤ handled) :
    nextTick period due handled ≤ handled + period := by
  unfold nextTick
  split <;> omega

theorem nextTick_self : nextTick period due due = due + period := by
  simp [nextTick]

/-- The rule of an interval that skips the ticks it has missed. A tick that was handled in time is
followed by the one a period later, any other by the first point of its series that lies behind the
instant at which it was handled. -/
structure Skips (next : ℕ → ℕ → ℕ → ℕ) : Prop where
  inTime {period due handled : ℕ} (early : handled ≤ due + tolerance) :
    next period due handled = due + period
  late {period due handled : ℕ} (period_pos : 0 < period) (tardy : due + tolerance < handled) :
    IsLeast {tick | handled < tick ∧ ∃ steps, tick = due + steps * period}
      (next period due handled)

theorem skips_nextTick : Skips nextTick where
  inTime := by
    intro period due handled early
    rw [nextTick, if_pos (by omega)]
  late := by
    intro period due handled period_pos tardy
    have remainder := Nat.mod_lt (handled - due) period_pos
    have whole := Nat.div_add_mod (handled - due) period
    have next : nextTick period due handled = handled + period - (handled - due) % period := by
      rw [nextTick, if_neg (by omega)]
    rcases @nextTick_eq period due handled (by omega) with ⟨steps, -, onSeries⟩
    refine ⟨⟨by omega, steps, onSeries⟩, ?_⟩
    rintro tick ⟨behind, others, rfl⟩
    -- A point behind `handled` is at least one period behind the last one that is not.
    have more : (handled - due) / period + 1 ≤ others := by
      by_contra fewer
      have atMost : others * period ≤ (handled - due) / period * period :=
        Nat.mul_le_mul_right period (by omega)
      rw [Nat.mul_comm (_ / _)] at atMost
      omega
    have apart := Nat.mul_le_mul_right period more
    rw [Nat.add_mul, Nat.one_mul, Nat.mul_comm (_ / _)] at apart
    omega

/-- The rule leaves no choice. -/
theorem Skips.eq_nextTick {next : ℕ → ℕ → ℕ → ℕ} (skips : Skips next) (period_pos : 0 < period) :
    next period due handled = nextTick period due handled := by
  rcases Nat.lt_or_ge (due + tolerance) handled with tardy | early
  · exact (skips.late period_pos tardy).unique (skips_nextTick.late period_pos tardy)
  · rw [skips.inTime early, skips_nextTick.inTime early]

/-- A clock that can tell an instant can tell all before it. -/
theorem tells_of_le {instant later : ℕ} (le : instant ≤ later) (told : tells unit later = true) :
    tells unit instant = true := by
  simp only [tells, decide_eq_true_eq] at told ⊢
  exact Nat.lt_of_le_of_lt (Nat.div_le_div_right le) told

theorem le_firstTick : now ≤ firstTick unit now period := by
  unfold firstTick
  split
  · exact Nat.le_add_right _ _
  · split
    · exact Nat.le_add_right _ _
    · exact Nat.le_refl _

/-- The far future is nearer than a tick that the clock cannot tell. -/
theorem firstTick_le : firstTick unit now period ≤ now + period := by
  unfold firstTick
  split
  · exact Nat.le_refl _
  · next beyond =>
      split
      · next told =>
          by_contra later
          exact beyond (tells_of_le (Nat.le_of_lt (Nat.not_le.mp later)) told)
      · exact Nat.le_add_right _ _

theorem firstTick_of_tells (told : tells unit (now + period) = true) :
    firstTick unit now period = now + period :=
  if_pos told

/-- What is in reach stays in reach in the past. -/
theorem inReach_of_le {instant later : ℕ} (le : instant ≤ later)
    (reaches : inReach period later = true) : inReach period instant = true :=
  tells_of_le (Nat.add_le_add_right le _) reaches

/-- The clock can tell the tick one period after an instant in reach. -/
theorem tells_of_inReach (reaches : inReach period now = true) :
    tells 1000 (now + period) = true :=
  tells_of_le (Nat.add_le_add_left (Nat.le_max_left _ _) _) reaches

end Schedule

theorem Execution.startedAt_le_endsAt (execution : Execution) :
    execution.startedAt ≤ execution.endsAt := Nat.le_add_right _ _

theorem Execution.elapsed_le_timeout (execution : Execution) :
    execution.elapsed ≤ execution.options.timeout := by
  unfold elapsed outcome?
  split
  · next delay outcome ended =>
      split at ended
      · split at ended
        · next inTime =>
            cases ended
            exact Nat.le_of_lt inTime
        · cases ended
      · cases ended
  · exact Nat.le_refl _

namespace Timer

/-- A timer whose first tick was `first`, at the instant `now`, after the ticks it has answered. -/
structure OnTime (first now : Nat) (timer : Timer) (ticks : List Tick) : Prop where
  /-- The first tick, whether it is answered or yet to come. -/
  begins : (ticks.head?.map (·.due)).getD timer.due = first
  grid : ∃ indices : List Nat, ∃ next, indices.Pairwise (· < ·) ∧
    (∀ index ∈ indices, index < next) ∧
    ticks.map (·.due) = indices.map (fun index => first + index * timer.period) ∧
    timer.due = first + next * timer.period
  options : ∀ tick ∈ ticks, tick.execution.options = timer.registration.options
  due_le : ∀ tick ∈ ticks, tick.due ≤ tick.execution.startedAt
  apart : ticks.Pairwise fun earlier later =>
    earlier.execution.endsAt ≤ later.execution.startedAt
  reached : ∀ tick ∈ ticks, tick.execution.startedAt ≤ now
  idleSince_le : timer.idleSince ≤ now
  waits_since : timer.idleSince ≤ first ∨
    ∃ tick ∈ ticks, timer.idleSince = tick.execution.endsAt
  ended : timer.running = none → ∀ tick ∈ ticks, tick.execution.endsAt ≤ timer.idleSince
  soon : timer.running = none → timer.due ≤ timer.idleSince + timer.period
  runs : ∀ execution, timer.running = some execution →
    timer.due ≤ execution.startedAt + timer.period ∧
      ∃ earlier due, ticks = earlier ++ [⟨due, execution⟩]
  punctual : (∀ tick ∈ ticks, tick.execution.elapsed ≤ timer.period) →
    ticks.map (·.execution.startedAt) =
        (List.range ticks.length).map (fun index => first + index * timer.period) ∧
      timer.due = first + ticks.length * timer.period

theorem onTime_start (now period : Nat) (registration : Registration) :
    (start now period registration).OnTime (Schedule.firstTick 1000 now period) now [] where
  begins := rfl
  grid := ⟨[], 0, List.Pairwise.nil, by simp, rfl, by simp [start]⟩
  options := by simp
  due_le := by simp
  apart := List.Pairwise.nil
  reached := by simp
  idleSince_le := Nat.le_refl _
  waits_since := Or.inl Schedule.le_firstTick
  ended := by simp
  soon := fun _ => Schedule.firstTick_le
  runs := fun _ running => by cases running
  punctual := fun _ => ⟨rfl, by simp [start]⟩

namespace OnTime

variable {first now later : Nat} {timer : Timer} {ticks : List Tick} {execution : Execution}

theorem of_le (onTime : timer.OnTime first now ticks) (le : now ≤ later) :
    timer.OnTime first later ticks :=
  { onTime with
    reached := fun tick tick_mem => Nat.le_trans (onTime.reached tick tick_mem) le
    idleSince_le := Nat.le_trans onTime.idleSince_le le }

/-- As long as no execution has taken longer than a period, the timer waits before its tick. -/
theorem idleSince_le_due (onTime : timer.OnTime first now ticks)
    (short : ∀ tick ∈ ticks, tick.execution.elapsed ≤ timer.period) :
    timer.idleSince ≤ timer.due := by
  rcases onTime.punctual short with ⟨starts, due⟩
  rcases onTime.waits_since with atFirst | ⟨tick, tick_mem, atEnd⟩
  · rw [due]
    exact Nat.le_trans atFirst (Nat.le_add_right _ _)
  · have start_mem : tick.execution.startedAt ∈
        (List.range ticks.length).map (fun index => first + index * timer.period) := by
      rw [← starts]
      exact List.mem_map_of_mem tick_mem
    rcases List.mem_map.mp start_mem with ⟨index, index_mem, startedAt⟩
    have next_le : (index + 1) * timer.period ≤ ticks.length * timer.period :=
      Nat.mul_le_mul_right _ (List.mem_range.mp index_mem)
    have elapsed := short tick tick_mem
    rw [Nat.add_mul, Nat.one_mul] at next_le
    rw [atEnd, due, Execution.endsAt, ← startedAt]
    omega

theorem finish (onTime : timer.OnTime first now ticks) (running : timer.running = some execution)
    (finished : execution.endsAt ≤ now) : (timer.finish execution).OnTime first now ticks := by
  rcases onTime.runs execution running with ⟨soon, earlier, due, split⟩
  have tick_mem : ⟨due, execution⟩ ∈ ticks := by simp [split]
  exact {
    begins := onTime.begins
    grid := onTime.grid
    options := onTime.options
    due_le := onTime.due_le
    apart := onTime.apart
    reached := onTime.reached
    idleSince_le := finished
    waits_since := Or.inr ⟨_, tick_mem, rfl⟩
    ended := by
      intro _ tick tick_mem
      have apart := onTime.apart
      rw [split] at tick_mem apart
      rcases List.mem_append.mp tick_mem with before | last
      · have inTurn := (List.pairwise_append.mp apart).2.2 tick before _ (List.mem_singleton_self _)
        exact Nat.le_trans inTurn execution.startedAt_le_endsAt
      · rw [List.mem_singleton.mp last]
        exact Nat.le_refl _
    soon := fun _ =>
      Nat.le_trans soon (Nat.add_le_add_right execution.startedAt_le_endsAt _)
    runs := fun _ none => by cases none
    punctual := onTime.punctual }

theorem begin (onTime : timer.OnTime first now ticks) (idle : timer.running = none)
    (reached : timer.handlesAt ≤ now) (calls : Nat) :
    (timer.begin calls).OnTime first now
      (ticks ++ [⟨timer.due, timer.nextExecution calls⟩]) := by
  have due_le : timer.due ≤ timer.handlesAt := Nat.le_max_left _ _
  have idle_le : timer.idleSince ≤ timer.handlesAt := Nat.le_max_right _ _
  exact {
    begins := by
      have begins := onTime.begins
      cases ticks with
      | nil => exact begins
      | cons tick rest => exact begins
    grid := by
      rcases onTime.grid with ⟨indices, next, increasing, below, dues, due⟩
      rcases @Schedule.nextTick_eq timer.period timer.due timer.handlesAt due_le with
        ⟨steps, steps_pos, nextTick⟩
      refine ⟨indices ++ [next], next + steps, ?_, ?_, ?_, ?_⟩
      · rw [List.pairwise_append]
        refine ⟨increasing, List.pairwise_singleton _ _, ?_⟩
        intro index index_mem last last_mem
        rw [List.mem_singleton.mp last_mem]
        exact below index index_mem
      · intro index index_mem
        rcases List.mem_append.mp index_mem with old | last
        · exact Nat.lt_of_lt_of_le (below index old) (Nat.le_add_right _ _)
        · rw [List.mem_singleton.mp last]
          exact Nat.lt_add_of_pos_right steps_pos
      · simp only [List.map_append, List.map_cons, List.map_nil, dues, due, Timer.begin]
      · calc (timer.begin calls).due = timer.due + steps * timer.period := nextTick
          _ = first + (next + steps) * timer.period := by rw [due, Nat.add_mul, Nat.add_assoc]
    options := by
      intro tick tick_mem
      rcases List.mem_append.mp tick_mem with old | new
      · exact onTime.options tick old
      · rw [List.mem_singleton.mp new]
        rfl
    due_le := by
      intro tick tick_mem
      rcases List.mem_append.mp tick_mem with old | new
      · exact onTime.due_le tick old
      · rw [List.mem_singleton.mp new]
        exact due_le
    apart := by
      rw [List.pairwise_append]
      refine ⟨onTime.apart, List.pairwise_singleton _ _, ?_⟩
      intro tick tick_mem last last_mem
      rw [List.mem_singleton.mp last_mem]
      exact Nat.le_trans (onTime.ended idle tick tick_mem) idle_le
    reached := by
      intro tick tick_mem
      rcases List.mem_append.mp tick_mem with old | new
      · exact onTime.reached tick old
      · rw [List.mem_singleton.mp new]
        exact reached
    idleSince_le := onTime.idleSince_le
    waits_since := by
      rcases onTime.waits_since with atFirst | ⟨tick, tick_mem, atEnd⟩
      · exact Or.inl atFirst
      · exact Or.inr ⟨tick, List.mem_append_left _ tick_mem, atEnd⟩
    ended := fun none => by cases none
    soon := fun none => by cases none
    runs := by
      rintro execution ⟨⟩
      exact ⟨Schedule.nextTick_le due_le, ticks, timer.due, rfl⟩
    punctual := by
      intro short
      have shortBefore : ∀ tick ∈ ticks, tick.execution.elapsed ≤ timer.period :=
        fun tick tick_mem => short tick (List.mem_append_left _ tick_mem)
      rcases onTime.punctual shortBefore with ⟨starts, due⟩
      have atOnce : timer.handlesAt = timer.due :=
        Nat.max_eq_left (onTime.idleSince_le_due shortBefore)
      constructor
      · simp only [List.map_append, List.map_cons, List.map_nil, List.length_append,
          List.length_singleton, List.range_succ, starts, nextExecution, atOnce, due, Timer.begin]
      · simp only [Timer.begin, atOnce, Schedule.nextTick_self, due, List.length_append,
          List.length_singleton, Nat.add_mul, Nat.one_mul, Nat.add_assoc] }

theorem proceed (onTime : timer.OnTime first now ticks) (turns calls : Nat) :
    (timer.proceed now turns calls).timer.OnTime first now
      (ticks ++ (timer.proceed now turns calls).started) := by
  induction turns generalizing timer ticks calls with
  | zero => simpa [Timer.proceed] using onTime
  | succ turns ih =>
      unfold Timer.proceed
      split
      · next execution running =>
          split
          · next finished => exact ih (onTime.finish running finished) calls
          · simpa using onTime
      · next idle =>
          split
          · next ready =>
              have rest := ih (onTime.begin idle ready.2 calls)
                (if (timer.nextExecution calls).calls then calls + 1 else calls)
              simpa [List.append_assoc] using rest
          · simpa using onTime

/-- Up to an instant no more executions start than points of the grid are reached. -/
theorem countP_startedAt_le (onTime : timer.OnTime first now ticks) (period_pos : 0 < timer.period)
    (instant : Nat) :
    ticks.countP (·.execution.startedAt ≤ instant) ≤
      (instant + timer.period - first) / timer.period := by
  rcases onTime.grid with ⟨indices, next, increasing, -, dues, -⟩
  have bound (index : Nat) (le : first + index * timer.period ≤ instant) :
      index < (instant + timer.period - first) / timer.period := by
    rw [Nat.lt_div_iff_mul_lt period_pos]
    omega
  have counted : (indices.filter fun index => first + index * timer.period ≤ instant).length ≤
      (instant + timer.period - first) / timer.period := by
    rw [← List.length_range (n := (instant + timer.period - first) / timer.period)]
    apply List.Subperm.length_le
    apply List.Nodup.subperm
    · exact (increasing.imp Nat.ne_of_lt).filter _
    · intro index index_mem
      rw [List.mem_range]
      exact bound index (by simpa using (List.mem_filter.mp index_mem).2)
  calc ticks.countP (·.execution.startedAt ≤ instant)
      ≤ ticks.countP (·.due ≤ instant) := by
        apply List.countP_mono_left
        intro tick tick_mem started
        have due_le := onTime.due_le tick tick_mem
        simp only [decide_eq_true_eq] at started ⊢
        exact Nat.le_trans due_le started
    _ = (ticks.map (·.due)).countP (· ≤ instant) := by
        rw [List.countP_map]
        rfl
    _ = (indices.filter fun index => first + index * timer.period ≤ instant).length := by
        rw [dues, List.countP_map, List.countP_eq_length_filter]
        rfl
    _ ≤ (instant + timer.period - first) / timer.period := counted

/-- Whatever the probe does, the next execution starts within a period, or within the timeout of
the execution under way if that is longer. -/
theorem started_ne_nil (onTime : timer.OnTime first now ticks) (period_pos : 0 < timer.period)
    (calls : Nat) :
    (timer.advance (now + max timer.registration.options.timeout timer.period) calls).started ≠
      [] := by
  have idleSince_le := onTime.idleSince_le
  cases running : timer.running with
  | none =>
      have soon := onTime.soon running
      have ready : 0 < timer.period ∧
          timer.handlesAt ≤ now + max timer.registration.options.timeout timer.period := by
        refine ⟨period_pos, ?_⟩
        simp only [handlesAt]
        omega
      rw [advance_of_idle running, if_pos ready]
      exact List.cons_ne_nil _ _
  | some execution =>
      rcases onTime.runs execution running with ⟨soon, earlier, due, split⟩
      have tick_mem : ⟨due, execution⟩ ∈ ticks := by simp [split]
      have reached : execution.startedAt ≤ now := onTime.reached _ tick_mem
      have elapsed := execution.elapsed_le_timeout
      rw [onTime.options _ tick_mem] at elapsed
      have endsAt_le : execution.endsAt ≤ now + timer.registration.options.timeout :=
        Nat.add_le_add reached elapsed
      have finished : execution.endsAt ≤
          now + max timer.registration.options.timeout timer.period := by omega
      have ready : 0 < (timer.finish execution).period ∧
          (timer.finish execution).handlesAt ≤
            now + max timer.registration.options.timeout timer.period := by
        refine ⟨period_pos, ?_⟩
        simp only [handlesAt, Timer.finish]
        omega
      rw [advance_of_running running, if_pos finished]
      simp only [advance_of_idle (rfl : (timer.finish execution).running = none), if_pos ready]
      exact List.cons_ne_nil _ _

end OnTime

/-- A turn of the timer has come. -/
def HasTurn (now : Nat) (timer : Timer) : Prop :=
  match timer.running with
  | some execution => execution.endsAt ≤ now
  | none => 0 < timer.period ∧ timer.handlesAt ≤ now

/-- The whole course leaves no turn to be taken. -/
theorem not_hasTurn_advance (horizon calls : Nat) (timer : Timer) :
    ¬(timer.advance horizon calls).timer.HasTurn horizon := by
  fun_induction Timer.advance horizon calls timer with
  | case1 calls timer execution running finished course ih => exact ih
  | case2 calls timer execution running under =>
      rw [HasTurn, running]
      exact under
  | case3 calls timer idle ready execution course ih => exact ih
  | case4 calls timer idle unready =>
      rw [HasTurn, idle]
      exact unready

/-- Without a turn left, a timer whose executions take a period at most has answered every tick. -/
theorem OnTime.length_eq {first now : Nat} {timer : Timer} {ticks : List Tick}
    (onTime : timer.OnTime first now ticks) (period_pos : 0 < timer.period)
    (settled : ¬timer.HasTurn now) (short : ∀ tick ∈ ticks, tick.execution.elapsed ≤ timer.period) :
    ticks.length = (now + timer.period - first) / timer.period := by
  rcases onTime.punctual short with ⟨starts, due⟩
  have all : ticks.countP (·.execution.startedAt ≤ now) = ticks.length := by
    rw [List.countP_eq_length]
    intro tick tick_mem
    simpa using onTime.reached tick tick_mem
  have atMost := onTime.countP_startedAt_le period_pos now
  rw [all] at atMost
  have lt_due : now < timer.due := by
    cases running : timer.running with
    | none =>
        rw [HasTurn, running, not_and, Nat.not_le, handlesAt] at settled
        have idleSince_le := onTime.idleSince_le
        have := settled period_pos
        omega
    | some execution =>
        rcases onTime.runs execution running with ⟨-, earlier, tickDue, split⟩
        have tick_mem : ⟨tickDue, execution⟩ ∈ ticks := by simp [split]
        have elapsed : execution.elapsed ≤ timer.period := short _ tick_mem
        have underWay : now < execution.endsAt := by
          rw [HasTurn, running] at settled
          exact Nat.not_le.mp settled
        -- The execution under way answers the last tick before the next one.
        have last : execution.startedAt = first + earlier.length * timer.period := by
          have lasts := congrArg List.getLast? starts
          rw [split] at lasts
          simpa [List.range_succ] using lasts
        rw [Execution.endsAt, last] at underWay
        rw [due, split, List.length_append, List.length_singleton, Nat.add_mul, Nat.one_mul]
        omega
  have below : (now + timer.period - first) / timer.period < ticks.length + 1 := by
    rw [Nat.div_lt_iff_lt_mul period_pos, Nat.add_mul, Nat.one_mul]
    omega
  omega

end Timer

end Vitals
