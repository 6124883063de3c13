import Vitals.Proofs.Registry.FanOut
import Vitals.Proofs.Registry.Timeline
import Vitals.Web.Router

/-!
# Work on demand and work in the background

Whoever asks a registry something does not disturb its timers. Asking leaves executions on record,
and a probe that counts its calls may notice them; apart from that, a run and the run without all
questions keep the same background, at every instant. The cache works the other way round: nobody
who asks for a check is answered from it.
-/

namespace Vitals

/-- Those who wait in the background keep their names, everybody else has none. -/
def Owner.inBackground : Owner → Option Owner
  | .timer => some .timer
  | .inquiry _ => none

/-- The probe behaves the same in each call. -/
def Probe.IsSteady (probe : Probe) : Prop := ∀ call, probe call = probe 0

namespace Timer

/-- How often a steady probe was called makes no difference to its timer. -/
theorem proceed_of_steady {timer : Timer} (steady : timer.registration.probe.IsSteady)
    (horizon turns calls calls' : Nat) :
    timer.proceed horizon turns calls = timer.proceed horizon turns calls' := by
  induction turns generalizing timer calls calls' with
  | zero => rfl
  | succ turns ih =>
      have sameExecution : timer.nextExecution calls = timer.nextExecution calls' := by
        rw [nextExecution, nextExecution, steady calls, steady calls']
      have sameBegin : timer.begin calls = timer.begin calls' := by
        rw [begin, begin, sameExecution]
      simp only [proceed, sameExecution, sameBegin]
      split
      · next execution running =>
          rw [@ih (timer.finish execution) steady calls calls']
      · rw [@ih (timer.begin calls') steady]

end Timer

namespace Registry

/-- What can be asked of a registry, of its scheduler or of its HTTP view. -/
inductive Demand where
  | check (name : String)
  | checkAll
  | readiness
  | liveness
  | cached (name : String)
  | http (exposeCached : Bool) (request : Web.Request)
  | abort (ticket : Nat)

def Action.isOnDemand : Action → Bool
  | .ask _ | .abandon _ => true
  | _ => false

/-- What a registry does for a demand. The HTTP view plans an answer; the plan may hold a
question. -/
def Demand.actions (registry : Registry) : Demand → List Action
  | .check name => [.ask (.one name)]
  | .checkAll | .readiness => [.ask .all]
  | .liveness | .cached _ => []
  | .http exposeCached request =>
      match Web.Plan.ofRoute registry (Web.Route.ofRequest exposeCached request) with
      | .respond _ => []
      | .inquire question _ => [.ask question]
  | .abort ticket => [.abandon ticket]

/-- What a run does beside work on demand, and at which virtual times. -/
def background (actions : List Action) : List Action :=
  timeline (actions.filter (!·.isOnDemand))

/-- Two registries with the same background: what is registered, what is polled, what is cached,
and which executions timers have started, and when. -/
structure SameBackground (left right : Registry) : Prop where
  registrations : left.registrations = right.registrations
  destroyed : left.destroyed = right.destroyed
  polling : ∀ name, left.scheduler.isPolling name = right.scheduler.isPolling name
  cached : ∀ name, left.scheduler.cached name = right.scheduler.cached name
  ticks : ∀ name,
    (left.scheduler.ledger.recordOf name).filter (·.owner == .timer) =
      (right.scheduler.ledger.recordOf name).filter (·.owner == .timer)

namespace SameBackground

variable {left right : Registry}

theorem symm (same : left.SameBackground right) : right.SameBackground left where
  registrations := same.registrations.symm
  destroyed := same.destroyed.symm
  polling := fun name => (same.polling name).symm
  cached := fun name => (same.cached name).symm
  ticks := fun name => (same.ticks name).symm

theorem trans {next : Registry} (same : left.SameBackground right)
    (further : right.SameBackground next) : left.SameBackground next where
  registrations := same.registrations.trans further.registrations
  destroyed := same.destroyed.trans further.destroyed
  polling := fun name => (same.polling name).trans (further.polling name)
  cached := fun name => (same.cached name).trans (further.cached name)
  ticks := fun name => (same.ticks name).trans (further.ticks name)

end SameBackground

theorem isOnDemand_of_mem_actions {registry : Registry} {demand : Demand} {action : Action}
    (action_mem : action ∈ demand.actions registry) : action.isOnDemand = true := by
  cases demand with
  | http exposeCached request =>
      simp only [Demand.actions] at action_mem
      split at action_mem
      · cases action_mem
      · next question _ _ =>
          obtain rfl : action = .ask question := List.mem_singleton.mp action_mem
          rfl
  | check name =>
      obtain rfl : action = .ask (.one name) := List.mem_singleton.mp action_mem
      rfl
  | checkAll =>
      obtain rfl : action = .ask .all := List.mem_singleton.mp action_mem
      rfl
  | readiness =>
      obtain rfl : action = .ask .all := List.mem_singleton.mp action_mem
      rfl
  | liveness => cases action_mem
  | cached name => cases action_mem
  | abort ticket =>
      obtain rfl : action = .abandon ticket := List.mem_singleton.mp action_mem
      rfl

theorem filter_actions (registry : Registry) (demand : Demand) :
    (demand.actions registry).filter (!·.isOnDemand) = [] := by
  rw [List.filter_eq_nil_iff]
  intro action action_mem
  simp [isOnDemand_of_mem_actions action_mem]

/-- A demand can be put in anywhere, also between two milliseconds of a passage of time. -/
theorem background_of_demand (registry : Registry) (demand : Demand) (before after : List Action)
    (first second : Nat) :
    background (before ++ .advance first :: demand.actions registry ++ .advance second :: after) =
      background (before ++ .advance (first + second) :: after) := by
  have passes (milliseconds : Nat) (rest : List Action) :
      (.advance milliseconds :: rest).filter (!·.isOnDemand) =
        .advance milliseconds :: rest.filter (!·.isOnDemand) := rfl
  simp only [background, List.append_assoc, List.cons_append, List.filter_append, passes,
    filter_actions, List.nil_append, timeline_append, timeline_cons, Action.join_advance]

theorem filterMap_inBackground (runs : List Run) :
    runs.filterMap (·.rename? Owner.inBackground) = runs.filter (·.owner == .timer) := by
  rw [← List.filterMap_eq_filter]
  apply List.filterMap_congr
  rintro ⟨serial, owner, due, execution, cancelledAt⟩ _
  cases owner <;> rfl

/-- A registry has the background of one that nobody has asked anything. -/
theorem Matches.sameBackground {left right : Registry}
    (same : Matches Owner.inBackground left right) (coherent : left.Coherent) :
    left.SameBackground right where
  registrations := same.registrations coherent.names_nodup
  destroyed := same.destroyed
  polling := fun name => (same.parts name).scheduler.isPolling
  cached := fun name => (same.parts name).scheduler.cached
  ticks := by
    intro name
    have record := (same.parts name).scheduler.record
    rw [filterMap_inBackground] at record
    rw [← record, List.filter_filter]
    simp only [Bool.and_self]

/-- Whoever asks or gives up leaves the background alone. -/
theorem Matches.step_left {left right : Registry} (same : Matches Owner.inBackground left right)
    (coherent : left.Coherent) {action : Action} (onDemand : action.isOnDemand = true) :
    Matches Owner.inBackground (left.step action) right := by
  cases action with
  | ask question =>
      exact ⟨same.names, same.destroyed,
        fun name => (same.parts name).ask_left coherent.names_nodup (Or.inr rfl)⟩
  | abandon ticket =>
      exact ⟨same.names, same.destroyed, fun name => (same.parts name).abandon_left rfl⟩
  | _ => cases onDemand

theorem Matches.step {left right : Registry} (same : Matches Owner.inBackground left right)
    (inStep : ∀ name, Scheduler.InStep name left.scheduler right.scheduler) {action : Action}
    (unasked : action.isOnDemand = false) :
    Matches Owner.inBackground (left.step action) (right.step action) := by
  refine ⟨same.names_step action, same.destroyed_step action, ?_⟩
  intro name
  have part := same.parts name
  cases action with
  | register options probe => exact part.register options probe
  | unregister other => exact part.unregister other
  | destroy => exact part.destroy
  | ask question => cases unasked
  | abandon ticket => cases unasked
  | advance milliseconds => exact part.advance (inStep name) milliseconds
  | pass milliseconds turns => exact part.pass (inStep name) milliseconds rfl

/-- Where all probes are steady, the timers do the same whatever calls are on record. -/
theorem inStep_of_steady (version : String) (created : Nat) {actions : List Action}
    (steady : ∀ options probe, .register options probe ∈ actions → Probe.IsSteady probe)
    (other : Scheduler) (name : String) :
    Scheduler.InStep name ((create version created).run actions).scheduler other := by
  intro timer timer_mem horizon turns
  have coherent := coherent_run version created actions
  have polled : timer.registration ∈
      ((create version created).run actions).scheduler.polled :=
    List.mem_map_of_mem (List.mem_filter.mp timer_mem).1
  have registered := ((coherent.mem_polled timer.registration).mp polled).1
  have accepted := accepted_of_run version created actions timer.registration registered
  exact Timer.proceed_of_steady (steady _ _ accepted.2) _ _ _ _

theorem matches_background (version : String) (created : Nat) (actions : List Action)
    (steady : ∀ options probe, .register options probe ∈ actions → Probe.IsSteady probe) :
    Matches Owner.inBackground ((create version created).run actions)
      ((create version created).run (actions.filter (!·.isOnDemand))) := by
  induction actions using List.reverseRecOn with
  | nil =>
      refine ⟨rfl, rfl, fun name => Mirrors.create version created name ?_⟩
      intro owner
      cases owner <;> simp [Owner.inBackground]
  | append_singleton earlier last ih =>
      have steady_earlier : ∀ options probe, .register options probe ∈ earlier →
          Probe.IsSteady probe :=
        fun options probe registered => steady options probe (List.mem_append_left _ registered)
      have same := ih steady_earlier
      rw [run_concat, List.filter_append]
      cases onDemand : last.isOnDemand with
      | true =>
          have nothing : [last].filter (!·.isOnDemand) = [] := by simp [onDemand]
          rw [nothing, List.append_nil]
          exact same.step_left (coherent_run version created earlier) onDemand
      | false =>
          have kept : [last].filter (!·.isOnDemand) = [last] := by simp [onDemand]
          rw [kept, run_concat]
          exact same.step (inStep_of_steady version created steady_earlier _) onDemand

/-- A run that is cut off has its background cut off. -/
theorem background_upTo (elapsed : Nat) (actions : List Action) :
    background (upTo elapsed actions) = upTo elapsed (background actions) := by
  rw [background, background, ← timeline_upTo, filter_upTo]
  · intro action dropped
    cases action with
    | ask question => rfl
    | abandon ticket => rfl
    | _ => cases dropped
  · intro action limit
    cases action <;> rfl

/-- A run has the background that its timeline without demands has. -/
theorem sameBackground_of_run (version : String) (created : Nat) (actions : List Action)
    (steady : ∀ options probe, .register options probe ∈ actions → Probe.IsSteady probe) :
    ((create version created).run actions).SameBackground
      ((create version created).run (background actions)) := by
  have unasked := matches_background version created actions steady
  have joined := alike_timeline_of_run version created (actions.filter (!·.isOnDemand))
  exact (unasked.trans joined.toMatches).sameBackground (coherent_run version created actions)

/-- The same registry with other results in the cache. -/
def recalling (registry : Registry) (latest : Named Result) : Registry :=
  { registry with scheduler := { registry.scheduler with latest := latest } }

theorem ticketed_recalling {registry : Registry} (ticketed : registry.Ticketed)
    (latest : Named Result) : (registry.recalling latest).Ticketed :=
  ⟨ticketed.answers, ticketed.pending⟩

/-- Work on demand and the background do not disturb each other. A demand can be put into a run at
any moment, or be taken out; as long as the probes are steady and everything else happens at the
same virtual times, the background is the same at every instant. And whatever the cache holds, a
question finds the same executions, and waits for them alike. -/
theorem undisturbed_background (version : String) (created : Nat) :
    (∀ (registry : Registry) (demand : Demand) (before after : List Action) (first second : Nat),
      background
          (before ++ .advance first :: demand.actions registry ++ .advance second :: after) =
        background (before ++ .advance (first + second) :: after)) ∧
    (∀ left right : List Action,
      (∀ options probe, .register options probe ∈ left ++ right → Probe.IsSteady probe) →
      background left = background right →
      ∀ elapsed, ((create version created).run (upTo elapsed left)).SameBackground
        ((create version created).run (upTo elapsed right))) ∧
    (∀ (actions during : List Action) (question : Question) (latest : Named Result),
      let registry := (create version created).run actions
      let other := registry.recalling latest
      let inquiry := registry.inquiry question
      other.inquiry question = inquiry ∧
      (.abandon inquiry.ticket ∉ during →
        ((registry.ask question).run during).Undisturbed inquiry ∧
          ((other.ask question).run during).Undisturbed inquiry)) := by
  refine ⟨background_of_demand, ?_, ?_⟩
  · intro left right steady same elapsed
    have steady_left : ∀ options probe, .register options probe ∈ upTo elapsed left →
        Probe.IsSteady probe :=
      fun options probe registered =>
        steady options probe (List.mem_append_left _ (register_mem_of_upTo registered))
    have steady_right : ∀ options probe, .register options probe ∈ upTo elapsed right →
        Probe.IsSteady probe :=
      fun options probe registered =>
        steady options probe (List.mem_append_right _ (register_mem_of_upTo registered))
    have fromLeft := sameBackground_of_run version created _ steady_left
    have fromRight := sameBackground_of_run version created _ steady_right
    rw [background_upTo, same, ← background_upTo] at fromLeft
    exact fromLeft.trans fromRight.symm
  · intro actions during question latest registry other inquiry
    have ticketed : registry.Ticketed := ticketed_run version created actions
    refine ⟨rfl, fun kept => ⟨(Undisturbed.ask ticketed question).run kept, ?_⟩⟩
    exact (Undisturbed.ask (ticketed_recalling ticketed latest) question).run kept

theorem undisturbed_background_of_hanging_probe :
    let enters : Action := .register ⟨"db", 5, true, some 10⟩ fun _ => .hangs
    let left := [enters, .ask (.one "db"), .advance 25]
    let right := [enters, .advance 12, .ask .all, .abandon 0, .advance 13]
    let registry := (create "1.0.0" 0).run right
    ((create "1.0.0" 0).run (upTo 20 left)).SameBackground
        ((create "1.0.0" 0).run (upTo 20 right)) ∧
      ((registry.ask .all).run [.unregister "db", .advance 60]).Undisturbed
        (registry.inquiry .all) := by
  intro enters left right registry
  have steady : ∀ options probe, .register options probe ∈ left ++ right →
      Probe.IsSteady probe := by
    intro options probe registered
    have known : options = ⟨"db", 5, true, some 10⟩ ∧ probe = fun _ => .hangs := by
      simpa [left, right, enters] using registered
    rw [known.2]
    exact fun _ => rfl
  rcases undisturbed_background "1.0.0" 0 with ⟨-, undisturbed, uncached⟩
  constructor
  · exact undisturbed left right steady rfl 20
  · exact ((uncached right [.unregister "db", .advance 60] .all []).2 (by simp)).1

end Registry

end Vitals
