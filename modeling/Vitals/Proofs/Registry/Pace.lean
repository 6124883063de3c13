import Vitals.Proofs.Polling.Pace
import Vitals.Proofs.Registry.Runs

/-!
# The pace of background executions

A registration with an interval is executed on the grid of its interval, which begins one interval
after the registration, and none of its executions begins before the one before has ended.

The clock cannot tell every instant. The grid is kept up to any instant from which the clock can
tell one interval more. A first tick beyond what the clock can tell is moved to the far future,
thirty years ahead.
-/

namespace Vitals

namespace Registry

theorem orderly_run (version : String) (created : Nat) (actions : List Action) :
    ((create version created).run actions).scheduler.Orderly := by
  rw [scheduler_run]
  exact (Scheduler.orderly_startingAt created).run _

theorem period_pos_of_accepts {registry : Registry} {options : Options} {period : Nat}
    (accepted : registry.accepts options = true) (interval : options.interval = some period) :
    0 < period := by
  simp only [accepts, Bool.and_eq_true, Option.isNone_iff_eq_none,
    Options.fault?_eq_none_iff] at accepted
  apply Nat.pos_of_ne_zero
  rintro rfl
  exact accepted.1.2.2 interval

/-- An accepted registration starts its timer, and what the registry does later are further actions
of the scheduler. -/
theorem scheduler_run_register {registry : Registry} {options : Options}
    (accepted : registry.accepts options = true) (probe : Probe) (after : List Action) :
    (registry.run (.register options probe :: after)).scheduler =
      registry.scheduler.run
        (.start options probe :: (registry.step (.register options probe)).orders after) := by
  rw [scheduler_run registry, orders, stepOrders, if_pos accepted]
  rfl

/-- From its start on, and for as long as it is not taken away, the timer of a registration keeps
the pace of its interval, whatever the probe does, up to any instant from which the clock can tell
one interval more. Its executions start in turn in any case, the first one for a tick that is one
interval after the start if the clock can tell that instant, and in the far future if not, or at
once if the clock cannot tell that either. Every rule by which missed ticks are skipped gives the
ticks that are meant here. -/
theorem keeps_pace_of_run :
    (∀ (start : Nat) (before after : List Scheduler.Action) (options : Options) (probe : Probe)
      (period : Nat),
      let scheduler := (Scheduler.startingAt start).run before
      let registration := scheduler.ledger.registration options probe
      let later := scheduler.run (.start options probe :: after)
      options.interval = some period → 0 < period → registration ∈ later.polled →
        later.KeepsPace registration scheduler.now period) ∧
    (∀ (version : String) (created : Nat) (before after : List Action) (options : Options)
      (probe : Probe) (period : Nat),
      let registry := (create version created).run before
      let registration := registry.scheduler.ledger.registration options probe
      let later := registry.run (.register options probe :: after)
      options.interval = some period → registry.accepts options = true →
        registration ∈ later.scheduler.polled →
          later.scheduler.KeepsPace registration registry.now period) ∧
    (∀ now period : Nat,
      Schedule.firstTick 1000 now period ≤ now + period ∧
      (Schedule.tells 1000 (now + period) = true →
        Schedule.firstTick 1000 now period = now + period) ∧
      (Schedule.tells 1000 (now + period) = false →
        Schedule.firstTick 1000 now period =
          if Schedule.tells 1000 (now + Schedule.farFuture * 1000) then
            now + Schedule.farFuture * 1000
          else now)) ∧
    ∀ next : Nat → Nat → Nat → Nat, Schedule.Skips next → ∀ period due handled, 0 < period →
      next period due handled = Schedule.nextTick period due handled := by
  refine ⟨?_, ?_, ?_, ?_⟩
  · intro start before after options probe period scheduler registration later interval period_pos
      polled
    have orderly : scheduler.Orderly := (Scheduler.orderly_startingAt start).run before
    exact orderly.keepsPace interval period_pos polled
  · intro version created before after options probe period registry registration later interval
      accepted polled
    have orderly : registry.scheduler.Orderly := orderly_run version created before
    have ordered : later.scheduler = registry.scheduler.run
        (.start options probe :: (registry.step (.register options probe)).orders after) :=
      scheduler_run_register accepted probe after
    rw [ordered] at polled ⊢
    exact orderly.keepsPace interval (period_pos_of_accepts accepted interval) polled
  · intro now period
    refine ⟨Schedule.firstTick_le, Schedule.firstTick_of_tells, ?_⟩
    intro untold
    rw [Schedule.firstTick, untold, if_neg Bool.false_ne_true]
  · intro next skips period due handled period_pos
    exact skips.eq_nextTick period_pos

theorem keeps_pace_of_slow_probe :
    let options : Options := ⟨"slow", 100, false, some 10⟩
    let probe : Probe := fun _ => .ends 35 (.returned (.healthy "slow"))
    let scheduler := (Scheduler.startingAt 0).run [.advance 7]
    let registry := (create "1.0.0" 0).run [.advance 7]
    (∃ ticks, (scheduler.run [.start options probe, .pass 45 fun _ => 3]).PollsRegularly
      (scheduler.ledger.registration options probe) 17 10 ticks) ∧
    (∃ ticks, (registry.run [.register options probe, .advance 300]).scheduler.PollsRegularly
      (registry.scheduler.ledger.registration options probe) 17 10 ticks) ∧
    Schedule.nextTick 10 17 52 = 57 := by
  intro options probe scheduler registry
  refine ⟨?_, ?_, ?_⟩
  · have pace := keeps_pace_of_run.1 0 [.advance 7] [.pass 45 fun _ => 3] options probe 10 rfl
      (by decide) (by simp [Scheduler.run, Scheduler.polled_step, options])
    exact pace.regular (by decide +kernel)
  · have accepted : registry.accepts options = true := by decide +kernel
    have polled : registry.scheduler.ledger.registration options probe ∈
        (registry.run [.register options probe, .advance 300]).scheduler.polled := by
      rw [scheduler_run_register accepted]
      simp [Scheduler.run, Scheduler.polled_step, orders, stepOrders, options, registry]
    have pace := keeps_pace_of_run.2.1 "1.0.0" 0 [.advance 7] [.advance 300] options probe 10 rfl
      accepted polled
    exact pace.regular (by decide +kernel)
  · rw [← keeps_pace_of_run.2.2.2 _ Schedule.skips_nextTick 10 17 52 (by decide)]
    decide

/-- An interval that ends beyond what the clock can tell: the first tick comes after thirty years,
which is no multiple of the interval. -/
theorem off_pace_of_untellable_tick :
    ¬∀ (version : String) (created : Nat) (before after : List Action) (options : Options)
      (probe : Probe) (period : Nat),
      let registry := (create version created).run before
      let registration := registry.scheduler.ledger.registration options probe
      let later := registry.run (.register options probe :: after)
      options.interval = some period → registry.accepts options = true →
        registration ∈ later.scheduler.polled →
          ∃ ticks, later.scheduler.PollsRegularly registration (registry.now + period) period
            ticks := by
  intro claim
  let options : Options := ⟨"db", 5, false, some (2 ^ 63 * 1000)⟩
  let probe : Probe := fun _ => .ends 0 (.returned (.healthy "db"))
  have accepted : (create "1.0.0" 0).accepts options = true := by decide +kernel
  have polled : (create "1.0.0" 0).scheduler.ledger.registration options probe ∈
      ((create "1.0.0" 0).run
        [.register options probe, .advance 946080000000]).scheduler.polled := by
    rw [scheduler_run_register accepted]
    simp [Scheduler.run, Scheduler.polled_step, orders, stepOrders, options]
  rcases claim "1.0.0" 0 [] [.advance 946080000000] options probe _ rfl accepted polled with
    ⟨ticks, regular⟩
  have ticked : (((create "1.0.0" 0).run
      [.register options probe, .advance 946080000000]).scheduler.ledger.ticksOf "db" 0).map
        (·.due) = [some 946080000000] := by decide +kernel
  have recorded := congrArg (List.map (·.due)) regular.recorded
  have dues : ticks.map (·.due) = [946080000000] := by
    have tickDues := recorded.symm.trans ticked
    rw [List.map_map] at tickDues
    rcases List.map_eq_singleton_iff.mp tickDues with ⟨tick, single, due⟩
    rw [single, List.map_singleton, Option.some.inj due]
  rcases regular.grid with ⟨indices, -, onGrid⟩
  rw [dues] at onGrid
  rcases List.map_eq_singleton_iff.mp onGrid.symm with ⟨index, -, due⟩
  have now_eq : ((create "1.0.0" 0).run []).now = 0 := rfl
  rw [now_eq] at due
  omega

end Registry

end Vitals
