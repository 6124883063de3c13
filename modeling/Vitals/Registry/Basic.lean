import Vitals.Polling.Scheduler
import Vitals.Registry.Inquiry

/-!
# The registry

The probes of a service in the order of their first registration. A name is registered once:
registering it again replaces probe and options in place. The registry feeds the scheduler, and
it answers inquiries; inquiries neither read nor write what the scheduler keeps. Destroying the
registry empties it for good.
-/

namespace Vitals

/-- The probes of a service, their timers and the inquiries under way. -/
structure Registry where
  version : String
  createdAt : Nat
  scheduler : Scheduler
  registrations : List Registration
  destroyed : Bool
  /-- The number of inquiries so far. -/
  asked : Nat
  /-- The inquiries that are not over. -/
  pending : List Inquiry

namespace Registry

/-- A registry without probes, made at an instant. -/
def create (version : String) (now : Nat) : Registry :=
  ⟨version, now, .startingAt now, [], false, 0, []⟩

def now (registry : Registry) : Nat := registry.scheduler.now

def names (registry : Registry) : List String :=
  registry.registrations.map (·.options.name)

def size (registry : Registry) : Nat := registry.registrations.length

def isEmpty (registry : Registry) : Bool := registry.registrations.isEmpty

def find? (registry : Registry) (name : String) : Option Registration :=
  registry.registrations.find? (·.options.name == name)

/-- The list of registrations with one that takes the place of its name, or comes last. -/
def place (registration : Registration) : List Registration → List Registration
  | [] => [registration]
  | existing :: rest =>
      if existing.options.name = registration.options.name then registration :: rest
      else existing :: place registration rest

/-- Registers a probe, or replaces the one of its name. Refused for the first rule that the
options break, and for good once the registry is destroyed. -/
def register (registry : Registry) (options : Options) (probe : Probe) :
    Except Rejection Registry :=
  match options.fault? with
  | some fault => .error fault
  | none =>
      if registry.destroyed then .error (.destroyed options.name)
      else
        let registration := registry.scheduler.ledger.registration options probe
        let issued :=
          { registry.scheduler with ledger := registry.scheduler.ledger.issue options.name }
        .ok
          { registry with
            registrations := place registration registry.registrations
            scheduler := issued.start registration }

/-- Removes the probe of a name, its timer and its result. -/
def unregister (registry : Registry) (name : String) : Registry :=
  { registry with
    registrations := registry.registrations.filter (·.options.name != name)
    scheduler := registry.scheduler.stop name }

/-- Whether there is anything to remove under a name: the registry gets smaller by it. -/
def unregisters (registry : Registry) (name : String) : Bool :=
  (registry.unregister name).size != registry.size

/-- Removes everything, once and for all. -/
def destroy (registry : Registry) : Registry :=
  if registry.destroyed then registry
  else
    { registry with
      registrations := []
      scheduler := registry.scheduler.stopAll
      destroyed := true }

/-- Lets the clock reach an instant. -/
def advanceTo (registry : Registry) (horizon : Nat) : Registry :=
  { registry with
    scheduler := registry.scheduler.advanceTo horizon
    pending := registry.pending.filter fun inquiry => horizon < inquiry.endsAt }

/-- Lets a number of milliseconds pass. -/
def advance (registry : Registry) (milliseconds : Nat) : Registry :=
  registry.advanceTo (registry.now + milliseconds)

/-- The execution that a check of a registration starts. -/
def executionOf (registry : Registry) (registration : Registration) : Execution :=
  let call := registry.scheduler.ledger.callsStarted registration.options.name registration.serial
  ⟨registration.options, registration.probe call, registry.now⟩

/-- A check of a registration carries out the next call of its probe, under its options, now. -/
theorem executionOf_eq (registry : Registry) (registration : Registration) :
    registry.executionOf registration =
      { options := registration.options
        behaviour := registration.probe
          (registry.scheduler.ledger.callsStarted registration.options.name registration.serial)
        startedAt := registry.now } := rfl

def concerned (registry : Registry) : Question → List Registration
  | .one name => (registry.find? name).toList
  | .all => registry.registrations

def inquiry (registry : Registry) (question : Question) : Inquiry :=
  ⟨registry.asked, registry.now,
    (registry.concerned question).map fun registration =>
      (registration, registry.executionOf registration)⟩

/-- The registry when a question has been asked: the executions are on record. -/
def ask (registry : Registry) (question : Question) : Registry :=
  let inquiry := registry.inquiry question
  { registry with
    scheduler :=
      { registry.scheduler with ledger := registry.scheduler.ledger.record inquiry.runs }
    asked := registry.asked + 1
    pending :=
      if registry.now < inquiry.endsAt then registry.pending ++ [inquiry] else registry.pending }

/-- Gives an inquiry up; what it was executing is cancelled. -/
def abandon (registry : Registry) (ticket : Nat) : Registry :=
  { registry with
    scheduler :=
      { registry.scheduler with
        ledger := registry.scheduler.ledger.cancel (·.owner == .inquiry ticket) }
    pending := registry.pending.filter (·.ticket != ticket) }

/-- The registry when it is known how the next calls of some probes go. -/
def foresee (registry : Registry) (behaviours : List (String × Behaviour)) : Registry :=
  let foreseen (registration : Registration) : Registration :=
    match behaviours.lookup registration.options.name with
    | some behaviour => { registration with probe := fun _ => behaviour }
    | none => registration
  { registry with
    registrations := registry.registrations.map foreseen
    scheduler :=
      { registry.scheduler with
        timers := registry.scheduler.timers.map fun timer =>
          { timer with registration := foreseen timer.registration } } }

def uptime (registry : Registry) : Duration :=
  .ofMillis (registry.now - registry.createdAt)

/-- A sign of life; no probe is executed for it. -/
def liveness (registry : Registry) : Liveness :=
  ⟨.healthy, registry.uptime, .ofClock registry.now⟩

def report (registry : Registry) (system : Snapshot) (inquiry : Inquiry) : Report :=
  inquiry.report registry.version registry.createdAt system

end Registry

end Vitals
