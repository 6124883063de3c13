import Vitals.Error
import Vitals.Logging.Narration
import Vitals.Probes.Http

/-!
# Configured probes

The probes of a configuration are registered in its order. The first one that cannot be registered
ends the registration; the probes before it stay.
-/

namespace Vitals

/-- What probes find out about: a network, through a client, and a host. -/
structure World where
  client : Http.Client
  host : Host

namespace Config

/-- How a configured probe behaves in a world, or why it cannot be made. -/
def Probe.behaviour (probe : Probe) (world : World) : Except Error Behaviour :=
  match probe.kind with
  | .http check =>
      match check.requestMethod? with
      | some method => .ok (check.behaviour world.client probe.name method)
      | none => .error (.other ("无效的HTTP方法: " ++ check.method))
  | .memory thresholds => .ok (.ends 0 (world.host.checkMemory probe.name thresholds))
  | .disk path thresholds => .ok (.ends 0 (world.host.checkDisk probe.name path thresholds))

/-- The options under which a probe is registered; without polling it has no interval. -/
def Probe.registeredOptions (config : Config) (polling : Bool) (probe : Probe) : Options :=
  let options := probe.options config.global.defaultTimeout
  if polling then options else { options with interval := none }

/-- The registry with one more configured probe, or why it is not registered. -/
def enrol (config : Config) (world : World) (polling : Bool) (registry : Registry)
    (probe : Probe) : Except Error Registry := do
  let behaviour ← probe.behaviour world
  (registry.register (probe.registeredOptions config polling) fun _ => behaviour).mapError
    .registry

/-- The events of registering a configured probe. -/
def enrolEvents (config : Config) (polling : Bool) (registry : Registry) (probe : Probe) :
    List Logging.Event :=
  registry.registerEvents (probe.registeredOptions config polling) ++
    [⟨.debug, "vitals_registry::probes", "已从配置注册探针",
      [("probe", .plain probe.name), ("kind", .quoted probe.kind.label)]⟩]

end Config

/-- A registry in which configured probes were registered. -/
structure Enrolment where
  registry : Registry
  /-- How many of the probes are registered. -/
  count : Nat
  events : List Logging.Event
  /-- Why the next one is not. -/
  error : Option Error

namespace Enrolment

/-- Registers probes one after the other, up to the first that cannot be. -/
def ofProbes (config : Config) (world : World) (polling : Bool) (registry : Registry) :
    List Config.Probe → Enrolment
  | [] => ⟨registry, 0, [], none⟩
  | probe :: rest =>
      match config.enrol world polling registry probe with
      | .ok next =>
          let others := ofProbes config world polling next rest
          { others with
            count := others.count + 1
            events := config.enrolEvents polling registry probe ++ others.events }
      | .error error => ⟨registry, 0, [], some error⟩

/-- Registers the probes of a configuration. -/
def ofConfig (config : Config) (world : World) (polling : Bool) (registry : Registry) :
    Enrolment :=
  ofProbes config world polling registry config.probes

/-- How many probes were registered, or why not all. -/
def outcome (enrolment : Enrolment) : Except Error Nat :=
  match enrolment.error with
  | some error => .error error
  | none => .ok enrolment.count

end Enrolment

end Vitals
