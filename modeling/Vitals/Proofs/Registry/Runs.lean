import Vitals.Proofs.Polling.Runs
import Vitals.Registry.Basic

/-!
# Runs of a registry

Whatever changes a registry does so under one lock, from its first effect to its last. So calls
that are begun side by side take effect one after the other, and a run is a list of actions. An
inquiry holds no lock while its executions last: it is one action that asks, and then time passes.

A registry changes its scheduler by the actions of the scheduler only. `orders` are those actions:
what holds of every run of a scheduler holds of the scheduler in every run of a registry.
-/

namespace Vitals

namespace Registry

/-- Lets a number of milliseconds pass, in which the timer of a name takes a number of turns at
most. -/
def pass (registry : Registry) (milliseconds : Nat) (turns : String → Nat) : Registry :=
  { registry with
    scheduler := registry.scheduler.pass milliseconds turns
    pending := registry.pending.filter fun inquiry =>
      registry.now + milliseconds < inquiry.endsAt }

/-- What can happen to a registry. -/
inductive Action where
  | register (options : Options) (probe : Probe)
  | unregister (name : String)
  | destroy
  | ask (question : Question)
  | abandon (ticket : Nat)
  | advance (milliseconds : Nat)
  | pass (milliseconds : Nat) (turns : String → Nat)

/-- A registration that is refused changes nothing. -/
def step (registry : Registry) : Action → Registry
  | .register options probe =>
      match registry.register options probe with
      | .ok next => next
      | .error _ => registry
  | .unregister name => registry.unregister name
  | .destroy => registry.destroy
  | .ask question => registry.ask question
  | .abandon ticket => registry.abandon ticket
  | .advance milliseconds => registry.advance milliseconds
  | .pass milliseconds turns => registry.pass milliseconds turns

def run (registry : Registry) (actions : List Action) : Registry :=
  actions.foldl step registry

/-- No rule speaks against the options, and the registry is not destroyed. -/
def accepts (registry : Registry) (options : Options) : Bool :=
  options.fault?.isNone && !registry.destroyed

/-- The registry with a probe that it has accepted. -/
def enter (registry : Registry) (options : Options) (probe : Probe) : Registry :=
  { registry with
    registrations :=
      place (registry.scheduler.ledger.registration options probe) registry.registrations
    scheduler := registry.scheduler.launch options probe }

/-- What an action makes the scheduler do. -/
def stepOrders (registry : Registry) : Action → List Scheduler.Action
  | .register options probe => if registry.accepts options then [.start options probe] else []
  | .unregister name => [.stop name]
  | .destroy => if registry.destroyed then [] else [.stopAll]
  | .ask question => [.inquire (registry.inquiry question)]
  | .abandon ticket => [.abandon ticket]
  | .advance milliseconds => [.advance milliseconds]
  | .pass milliseconds turns => [.pass milliseconds turns]

def orders (registry : Registry) : List Action → List Scheduler.Action
  | [] => []
  | action :: rest => registry.stepOrders action ++ (registry.step action).orders rest

/-- The history of the cache. -/
def deliveries (registry : Registry) (actions : List Action) : List Delivery :=
  registry.scheduler.deliveries (registry.orders actions)

theorem register_eq (registry : Registry) (options : Options) (probe : Probe) :
    (∃ rejection, registry.accepts options = false ∧
      registry.register options probe = .error rejection) ∨
    (registry.accepts options = true ∧
      registry.register options probe = .ok (registry.enter options probe)) := by
  unfold register accepts
  cases options.fault? with
  | some fault => exact Or.inl ⟨fault, rfl, rfl⟩
  | none =>
      cases destroyed : registry.destroyed with
      | true => exact Or.inl ⟨.destroyed options.name, rfl, rfl⟩
      | false => exact Or.inr ⟨rfl, by rw [enter, destroyed]; rfl⟩

theorem step_register (registry : Registry) (options : Options) (probe : Probe) :
    registry.step (.register options probe) =
      if registry.accepts options then registry.enter options probe else registry := by
  rcases registry.register_eq options probe with ⟨rejection, refused, result⟩ | ⟨accepted, result⟩
  · simp only [step, result, refused, Bool.false_eq_true, if_false]
  · simp only [step, result, accepted, if_true]

theorem run_append (registry : Registry) (earlier later : List Action) :
    registry.run (earlier ++ later) = (registry.run earlier).run later :=
  List.foldl_append

theorem run_concat (registry : Registry) (earlier : List Action) (last : Action) :
    registry.run (earlier ++ [last]) = (registry.run earlier).step last :=
  registry.run_append earlier [last]

theorem orders_append (registry : Registry) (earlier later : List Action) :
    registry.orders (earlier ++ later) =
      registry.orders earlier ++ (registry.run earlier).orders later := by
  induction earlier generalizing registry with
  | nil => rfl
  | cons action rest ih =>
      simp only [List.cons_append, orders, ih, List.append_assoc]
      rfl

theorem scheduler_step (registry : Registry) (action : Action) :
    (registry.step action).scheduler = registry.scheduler.run (registry.stepOrders action) := by
  cases action with
  | register options probe =>
      rw [step_register, stepOrders]
      split <;> rfl
  | destroy =>
      rw [step, destroy, stepOrders]
      split <;> rfl
  | _ => rfl

/-- Which action of the scheduler an action can cause, and when it does. -/
inductive Causes (registry : Registry) : Action → Scheduler.Action → Prop where
  | register (options : Options) (probe : Probe) (accepted : registry.accepts options = true) :
      Causes registry (.register options probe) (.start options probe)
  | unregister (name : String) : Causes registry (.unregister name) (.stop name)
  | destroy (alive : registry.destroyed = false) : Causes registry .destroy .stopAll
  | ask (question : Question) :
      Causes registry (.ask question) (.inquire (registry.inquiry question))
  | abandon (ticket : Nat) : Causes registry (.abandon ticket) (.abandon ticket)
  | advance (milliseconds : Nat) : Causes registry (.advance milliseconds) (.advance milliseconds)
  | pass (milliseconds : Nat) (turns : String → Nat) :
      Causes registry (.pass milliseconds turns) (.pass milliseconds turns)

/-- An action causes one action of the scheduler at most. -/
theorem stepOrders_eq (registry : Registry) (action : Action) :
    registry.stepOrders action = [] ∨
      ∃ order, registry.stepOrders action = [order] ∧ registry.Causes action order := by
  cases action with
  | register options probe =>
      rw [stepOrders]
      split
      · next accepted => exact Or.inr ⟨_, rfl, .register options probe accepted⟩
      · exact Or.inl rfl
  | unregister name => exact Or.inr ⟨_, rfl, .unregister name⟩
  | destroy =>
      rw [stepOrders]
      split
      · exact Or.inl rfl
      · next alive => exact Or.inr ⟨_, rfl, .destroy (by simpa using alive)⟩
  | ask question => exact Or.inr ⟨_, rfl, .ask question⟩
  | abandon ticket => exact Or.inr ⟨_, rfl, .abandon ticket⟩
  | advance milliseconds => exact Or.inr ⟨_, rfl, .advance milliseconds⟩
  | pass milliseconds turns => exact Or.inr ⟨_, rfl, .pass milliseconds turns⟩

/-- In every run of a registry, its scheduler goes through a run of its own. -/
theorem scheduler_run (registry : Registry) (actions : List Action) :
    (registry.run actions).scheduler = registry.scheduler.run (registry.orders actions) := by
  induction actions generalizing registry with
  | nil => rfl
  | cons action rest ih =>
      calc ((registry.step action).run rest).scheduler
          = (registry.step action).scheduler.run ((registry.step action).orders rest) :=
            ih (registry.step action)
        _ = (registry.scheduler.run (registry.stepOrders action)).run
              ((registry.step action).orders rest) := by rw [scheduler_step]
        _ = registry.scheduler.run (registry.orders (action :: rest)) :=
            (Scheduler.run_append _ _ _).symm

theorem deliveries_append (registry : Registry) (earlier later : List Action) :
    registry.deliveries (earlier ++ later) =
      registry.deliveries earlier ++ (registry.run earlier).deliveries later := by
  rw [deliveries, orders_append, Scheduler.deliveries_append, ← scheduler_run]
  rfl

/-- What holds at the start and is kept by each action holds after every run. -/
theorem run_induction (invariant : Registry → Prop) {registry : Registry}
    (start : invariant registry)
    (step : ∀ registry action, invariant registry → invariant (registry.step action))
    (actions : List Action) : invariant (registry.run actions) :=
  List.foldlRecOn actions Registry.step start
    fun registry still action _ => step registry action still

end Registry

end Vitals
