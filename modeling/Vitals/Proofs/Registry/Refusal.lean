import Vitals.Proofs.Registry.Order
import Vitals.Proofs.Registry.Timeline

/-!
# Refused registrations

To register a probe is a procedure that has one effect after the other, and what it has done when
it is refused stays done. `admission` is that procedure, effect by effect. It makes all its checks
before its first effect; so a registration that is refused leaves the registry as it was, with the
timer of the same name in the middle of a tick or not, and every run is the same without it.
-/

namespace Vitals

namespace Options

/-- What is checked about a registration, in the order of the checks, with the error of each. -/
def checks (options : Options) (destroyed : Bool) : List (Bool × Rejection) :=
  [(Text.isBlankText options.name, .blankName),
    (options.timeout == 0, .zeroTimeout options.name),
    (options.interval == some 0, .zeroInterval options.name),
    (destroyed, .destroyed options.name)]

/-- The error of the first check that fails. -/
def objection? (options : Options) (destroyed : Bool) : Option Rejection :=
  ((options.checks destroyed).find? (·.1)).map (·.2)

/-- The rules for options come before the question whether anything can still be registered. -/
theorem objection?_eq (options : Options) (destroyed : Bool) :
    options.objection? destroyed =
      (options.fault? <|> if destroyed then some (.destroyed options.name) else none) := by
  unfold objection? checks fault?
  cases Text.isBlankText options.name with
  | true => rfl
  | false =>
      by_cases timeless : options.timeout = 0
      · simp [timeless]
      · by_cases instant : options.interval = some 0
        · simp [timeless, instant]
        · cases destroyed <;> simp [timeless, instant]

end Options

namespace Registry

/-! ## Registration, effect by effect -/

/-- A procedure on a registry. The effects that it had before it is refused stay. -/
abbrev Procedure := ExceptT Rejection (StateM Registry)

namespace Procedure

/-- What a procedure comes to, and the registry that it leaves. -/
def perform (procedure : Procedure Unit) (registry : Registry) :
    Except Rejection Unit × Registry :=
  procedure.run.run registry

/-- An effect on the scheduler. -/
def onScheduler (effect : Scheduler → Scheduler) : Procedure Unit :=
  modify fun registry => { registry with scheduler := effect registry.scheduler }

end Procedure

open Procedure

/-- Registers a probe: two checks, the entry in the list, the end of the timer that the name has
had, and then either the timer of the new registration or the end of the cached result. -/
def admission (options : Options) (probe : Probe) : Procedure Unit := do
  if let some fault := options.fault? then
    throw fault
  if (← get).destroyed then
    throw (.destroyed options.name)
  let registration := (← get).scheduler.ledger.registration options probe
  onScheduler fun scheduler => { scheduler with ledger := scheduler.ledger.issue options.name }
  modify fun registry =>
    { registry with registrations := place registration registry.registrations }
  onScheduler (·.halt options.name)
  onScheduler fun scheduler =>
    match options.interval with
    | some period =>
        { scheduler with
          timers := scheduler.timers ++ [.start scheduler.now period registration] }
    | none => { scheduler with latest := scheduler.latest.erase options.name }

variable {registry : Registry} {options : Options} {probe : Probe} {rejection : Rejection}

/-- A registration comes to what its effects come to, one after the other. -/
theorem perform_admission (registry : Registry) (options : Options) (probe : Probe) :
    (admission options probe).perform registry =
      match registry.register options probe with
      | .ok next => (.ok (), next)
      | .error rejection => (.error rejection, registry) := by
  rcases registry with ⟨version, createdAt, scheduler, registrations, destroyed, asked, pending⟩
  unfold register
  cases fault : options.fault? with
  | some first =>
      simp only [admission, fault]
      rfl
  | none =>
      cases destroyed with
      | true =>
          simp only [admission, fault]
          rfl
      | false =>
          simp only [admission, fault]
          cases interval : options.interval with
          | none =>
              simp only [Scheduler.start, Ledger.registration, interval]
              rfl
          | some period =>
              simp only [Scheduler.start, Ledger.registration, interval]
              rfl

/-- A registration is refused for the first check that fails. -/
theorem register_eq_error_iff :
    registry.register options probe = .error rejection ↔
      options.objection? registry.destroyed = some rejection := by
  rw [Options.objection?_eq, register]
  cases options.fault? with
  | some fault => simp
  | none => cases registry.destroyed <;> simp

/-! ## Runs without what is refused -/

def refuses (registry : Registry) : Action → Bool
  | .register options _ => !registry.accepts options
  | _ => false

theorem refuses_of_error (refused : registry.register options probe = .error rejection) :
    registry.refuses (.register options probe) = true := by
  rcases registry.register_eq options probe with ⟨-, unacceptable, -⟩ | ⟨-, accepted⟩
  · rw [refuses, unacceptable]
    rfl
  · rw [refused] at accepted
    cases accepted

/-- What is refused changes nothing, and the scheduler does not hear of it. -/
theorem step_of_refuses {action : Action} (refuses : registry.refuses action = true) :
    registry.step action = registry ∧ registry.stepOrders action = [] := by
  cases action with
  | register options probe =>
      have unacceptable : registry.accepts options = false := by
        simpa [Registry.refuses] using refuses
      rw [step_register, stepOrders, unacceptable]
      exact ⟨rfl, rfl⟩
  | _ => cases refuses

/-- What is refused has no part in what a run comes to, nor in the history of the cache. -/
theorem run_cons_of_refuses {action : Action} (refuses : registry.refuses action = true)
    (after : List Action) :
    registry.run (action :: after) = registry.run after ∧
      registry.deliveries (action :: after) = registry.deliveries after := by
  rcases step_of_refuses refuses with ⟨same, unheard⟩
  constructor
  · exact congrArg (·.run after) same
  · rw [deliveries, deliveries, orders, same, unheard, List.nil_append]

/-- What a run does without the registrations that are refused in it. -/
def heeded (registry : Registry) : List Action → List Action
  | [] => []
  | action :: rest =>
      if registry.refuses action then registry.heeded rest
      else action :: (registry.step action).heeded rest

/-- A run can be cleared of everything that is refused in it. -/
theorem run_heeded (registry : Registry) (actions : List Action) :
    registry.run (registry.heeded actions) = registry.run actions := by
  induction actions generalizing registry with
  | nil => rfl
  | cons action rest ih =>
      rw [heeded]
      split
      · next refused => exact (ih registry).trans (run_cons_of_refuses refused rest).1.symm
      · exact ih (registry.step action)

/-- A registration is refused for the first check that fails: the name, the timeout, the interval,
the destruction of the registry. It then leaves the registry as it was, effect by effect, and a run
comes out as the run without it, also if the time that passes before and after it becomes one
passage; so does the history of the cache. All registrations that are refused can be left out of a
run at once. -/
theorem refused_registration (version : String) (created : Nat) (before : List Action)
    (options : Options) (probe : Probe) :
    let start := create version created
    let registry := start.run before
    let call := Action.register options probe
    (∀ rejection, registry.register options probe = .error rejection ↔
      options.objection? (before.any Action.isDestroy) = some rejection) ∧
    (∀ rejection, registry.register options probe = .error rejection →
      (admission options probe).perform registry = (.error rejection, registry) ∧
      ∀ after,
        start.run (before ++ call :: after) = start.run (before ++ after) ∧
        start.deliveries (before ++ call :: after) = start.deliveries (before ++ after) ∧
        (start.run (before ++ call :: after)).Alike (start.run (timeline (before ++ after)))) ∧
    ∀ actions, start.run (start.heeded actions) = start.run actions := by
  intro start registry call
  refine ⟨?_, ?_, fun actions => run_heeded start actions⟩
  · intro rejection
    have destroyed_eq : registry.destroyed = before.any Action.isDestroy := by
      rw [(lists_run version created before).destroyed, List.any_reverse]
    rw [register_eq_error_iff, destroyed_eq]
  · intro rejection refused
    refine ⟨?_, ?_⟩
    · rw [perform_admission, refused]
    · intro after
      rcases run_cons_of_refuses (refuses_of_error refused) after with
        ⟨sameRun, sameDeliveries⟩
      have same : start.run (before ++ call :: after) = start.run (before ++ after) := by
        rw [run_append, run_append]
        exact sameRun
      refine ⟨same, ?_, ?_⟩
      · rw [deliveries_append, deliveries_append]
        exact congrArg _ sameDeliveries
      · rw [same]
        exact alike_timeline_of_run version created (before ++ after)

/-- The timer of the name is in the middle of a tick that never answers. -/
theorem refused_registration_of_hanging_probe :
    let start := create "1.0.0" 0
    let before : List Action := [.register ⟨"db", 50, true, some 10⟩ fun _ => .hangs, .advance 15]
    let registry := start.run before
    let options : Options := ⟨"db", 50, true, some 0⟩
    let call := Action.register options fun _ => .ends 0 (.returned (.healthy "db"))
    (registry.scheduler.timers.any fun timer => timer.name == "db" && timer.running.isSome) = true ∧
      registry.register options (fun _ => .ends 0 (.returned (.healthy "db"))) =
        .error (.zeroInterval "db") ∧
      start.run (before ++ call :: [.advance 100]) = start.run (before ++ [.advance 100]) := by
  intro start before registry options call
  rcases refused_registration "1.0.0" 0 before options
    (fun _ => .ends 0 (.returned (.healthy "db"))) with ⟨reasons, unchanged, -⟩
  have refused := (reasons (.zeroInterval "db")).mpr (by decide +kernel)
  exact ⟨by decide +kernel, refused, ((unchanged _ refused).2 [.advance 100]).1⟩

end Registry

end Vitals
