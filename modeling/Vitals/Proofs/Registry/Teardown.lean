import Vitals.Proofs.Polling.Silence
import Vitals.Proofs.Registry.Coherence

/-!
# Teardown

A timer goes when its name is stopped, unregistered or registered anew, when everything is stopped
or destroyed, and when the scheduler itself comes to its end. A registry does nothing to a timer
that its scheduler cannot do by one action, so the silence of removed timers carries over.
-/

namespace Vitals

namespace Registry

/-- The actions that take the timer of a name away; a registration does so only if it is
accepted. -/
def removes (registry : Registry) (name : String) : Action → Bool
  | .register options _ => registry.accepts options && options.name == name
  | .unregister other => other == name
  | .destroy => true
  | _ => false

theorem numbered_run (version : String) (created : Nat) (actions : List Action) :
    ((create version created).run actions).scheduler.Numbered := by
  rw [scheduler_run]
  exact (Scheduler.numbered_startingAt created).run _

/-- Where there is a timer, the registry is not destroyed; so its destruction stops the timer. -/
theorem stepOrders_of_removes {registry : Registry} (coherent : registry.Coherent) {timer : Timer}
    (timer_mem : timer ∈ registry.scheduler.timers) {teardown : Action}
    (removes : registry.removes timer.name teardown = true) :
    ∃ order : Scheduler.Action, order.removes timer.name = true ∧
      registry.stepOrders teardown = [order] := by
  cases teardown with
  | register options probe =>
      simp only [Registry.removes, Bool.and_eq_true] at removes
      exact ⟨.start options probe, removes.2, by simp [stepOrders, removes.1]⟩
  | unregister name => exact ⟨.stop name, removes, rfl⟩
  | destroy =>
      have alive : registry.destroyed = false := by
        cases destroyed : registry.destroyed with
        | false => rfl
        | true =>
            rw [coherent.timers_eq_nil destroyed] at timer_mem
            exact absurd timer_mem List.not_mem_nil
      exact ⟨.stopAll, rfl, by simp [stepOrders, alive]⟩
  | _ => simp [Registry.removes] at removes

/-- After every run, whatever takes a timer away silences it for good: from then on the timer
starts no execution, none of its calls comes to its own end, and nothing that is cached comes from
it. How far the timer was in its cycle does not matter, nor what happens later. -/
theorem silent_after_teardown :
    (∀ (now : Nat) (actions later : List Scheduler.Action) (teardown : Scheduler.Action),
      let scheduler := (Scheduler.startingAt now).run actions
      ∀ timer ∈ scheduler.timers, teardown.removes timer.name = true →
        scheduler.SilentBetween (scheduler.run (teardown :: later))
          (scheduler.deliveries (teardown :: later)) timer.name timer.registration.serial) ∧
    (∀ (version : String) (created : Nat) (actions later : List Action) (teardown : Action),
      let registry := (create version created).run actions
      ∀ timer ∈ registry.scheduler.timers, registry.removes timer.name teardown = true →
        registry.scheduler.SilentBetween (registry.run (teardown :: later)).scheduler
          (registry.deliveries (teardown :: later)) timer.name timer.registration.serial) := by
  constructor
  · intro now actions later teardown scheduler timer timer_mem removes
    have numbered : scheduler.Numbered := (Scheduler.numbered_startingAt now).run actions
    exact Scheduler.silentBetween_of_removes numbered (List.mem_map_of_mem timer_mem) removes later
  · intro version created actions later teardown registry timer timer_mem removes
    have coherent : registry.Coherent := coherent_run version created actions
    have numbered : registry.scheduler.Numbered := numbered_run version created actions
    rcases stepOrders_of_removes coherent timer_mem removes with ⟨order, orderRemoves, orders_eq⟩
    have orders_cons : registry.orders (teardown :: later) =
        order :: (registry.step teardown).orders later := by
      rw [orders, orders_eq]
      rfl
    rw [scheduler_run registry, deliveries, orders_cons]
    exact Scheduler.silentBetween_of_removes numbered (List.mem_map_of_mem timer_mem) orderRemoves _

theorem silent_after_teardown_of_hanging_call :
    let options : Options := ⟨"db", 5, false, some 10⟩
    let probe : Probe := fun _ => .hangs
    let scheduler := (Scheduler.startingAt 0).run [.start options probe, .advance 12]
    let registry := (create "1.0.0" 0).run [.register options probe, .advance 12]
    (∃ timer ∈ scheduler.timers, timer.running.isSome = true ∧
      scheduler.SilentBetween
        (scheduler.run [.stop "db", .start options probe, .advance 100])
        (scheduler.deliveries [.stop "db", .start options probe, .advance 100])
        timer.name timer.registration.serial) ∧
    (∃ timer ∈ registry.scheduler.timers, timer.running.isSome = true ∧
      registry.scheduler.SilentBetween
        (registry.run [.register options probe, .advance 100]).scheduler
        (registry.deliveries [.register options probe, .advance 100])
        timer.name timer.registration.serial) := by
  intro options probe scheduler registry
  constructor
  · have timer_mem : scheduler.timers.head (by decide +kernel) ∈ scheduler.timers :=
      List.head_mem _
    exact ⟨_, timer_mem, by decide +kernel,
      silent_after_teardown.1 0 [.start options probe, .advance 12] _ (.stop "db") _
        timer_mem (by decide +kernel)⟩
  · have timer_mem : registry.scheduler.timers.head (by decide +kernel) ∈
        registry.scheduler.timers := List.head_mem _
    exact ⟨_, timer_mem, by decide +kernel,
      silent_after_teardown.2 "1.0.0" 0 [.register options probe, .advance 12] _
        (.register options probe) _ timer_mem (by decide +kernel)⟩

end Registry

end Vitals
