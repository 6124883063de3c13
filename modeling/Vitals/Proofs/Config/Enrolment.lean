import Vitals.Config.Validation
import Vitals.Proofs.Registry.Order
import Vitals.Registry.Configured

/-!
# Registering what is configured

A probe meets an obstacle if no request can have its method, or if its options break a rule of the
registry; the method comes first. The probes before the first obstacle are registered, and no
other. The rules of a configuration are written for its texts, and say nothing about obstacles; yet
a configuration that keeps them meets none.
-/

namespace Vitals

namespace Config

/-- Why a probe of a kind cannot be made: no request can have its method. -/
def ProbeKind.methodFault? : ProbeKind → Option Error
  | .http check =>
      if check.requestMethod?.isNone then some (.other ("无效的HTTP方法: " ++ check.method)) else none
  | _ => none

namespace Probe

/-- Why a probe cannot be registered, where nothing is destroyed. -/
def obstacle? (config : Config) (polling : Bool) (probe : Probe) : Option Error :=
  probe.kind.methodFault? <|> (probe.registeredOptions config polling).fault?.map .registry

/-- How the calls of a probe go. -/
def calls (world : World) (probe : Probe) : Vitals.Probe := fun _ =>
  match probe.behaviour world with
  | .ok behaviour => behaviour
  | .error _ => .hangs

/-- The registration of a probe, as an action. -/
def registering (config : Config) (world : World) (polling : Bool) (probe : Probe) :
    Registry.Action :=
  .register (probe.registeredOptions config polling) (probe.calls world)

variable {config : Config} {world : World} {polling : Bool} {probe : Probe}

theorem name_registeredOptions : (probe.registeredOptions config polling).name = probe.name := by
  unfold registeredOptions
  split <;> rfl

theorem timeout_registeredOptions :
    (probe.registeredOptions config polling).timeout =
      (probe.timeout.getD config.global.defaultTimeout).toNat := by
  unfold registeredOptions
  split <;> rfl

theorem critical_registeredOptions :
    (probe.registeredOptions config polling).critical = probe.critical := by
  unfold registeredOptions
  split <;> rfl

theorem interval_registeredOptions :
    (probe.registeredOptions config polling).interval =
      if polling then probe.interval.map UInt64.toNat else none := by
  unfold registeredOptions
  split <;> rfl

theorem obstacle?_eq_none_iff :
    probe.obstacle? config polling = none ↔
      probe.kind.methodFault? = none ∧ (probe.registeredOptions config polling).fault? = none := by
  rw [obstacle?]
  cases probe.kind.methodFault? <;> simp

theorem behaviour_eq (world : World) (probe : Probe) :
    (∃ error, probe.kind.methodFault? = some error ∧ probe.behaviour world = .error error) ∨
    (probe.kind.methodFault? = none ∧ ∃ behaviour, probe.behaviour world = .ok behaviour) := by
  rw [behaviour]
  cases probe.kind with
  | http check =>
      cases method : check.requestMethod? with
      | none =>
          refine Or.inl ⟨.other ("无效的HTTP方法: " ++ check.method), ?_, ?_⟩
          · simp only [ProbeKind.methodFault?, method, Option.isNone_none, if_true]
          · simp only [method]
      | some text =>
          refine Or.inr ⟨?_, check.behaviour world.client probe.name text, ?_⟩
          · simp [ProbeKind.methodFault?, method]
          · simp only [method]
  | memory thresholds => exact Or.inr ⟨rfl, _, rfl⟩
  | disk path thresholds => exact Or.inr ⟨rfl, _, rfl⟩

end Probe

variable {config : Config} {world : World} {polling : Bool} {probe : Probe}

theorem enrol_of_obstacle {registry : Registry} {error : Error}
    (obstacle : probe.obstacle? config polling = some error) :
    config.enrol world polling registry probe = .error error := by
  rw [enrol]
  rcases probe.behaviour_eq world with ⟨fault, unmade, fails⟩ | ⟨made, behaviour, behaves⟩
  · rw [Probe.obstacle?, unmade] at obstacle
    cases obstacle
    rw [fails]
    rfl
  · rw [Probe.obstacle?, made] at obstacle
    rcases Option.map_eq_some_iff.mp obstacle with ⟨rejection, fault, rfl⟩
    have refused : registry.register (probe.registeredOptions config polling)
        (fun _ => behaviour) = .error rejection := by
      unfold Registry.register
      rw [fault]
    rw [behaves]
    exact congrArg (Except.mapError Error.registry) refused

theorem enrol_of_accepted {registry : Registry} (alive : registry.destroyed = false)
    (accepted : probe.obstacle? config polling = none) :
    config.enrol world polling registry probe =
      .ok (registry.step (probe.registering config world polling)) := by
  rw [Probe.obstacle?_eq_none_iff] at accepted
  have accepts : registry.accepts (probe.registeredOptions config polling) = true := by
    rw [Registry.accepts, accepted.2, alive]
    rfl
  rw [enrol, Probe.registering, Registry.step_register, if_pos accepts]
  rcases probe.behaviour_eq world with ⟨fault, unmade, -⟩ | ⟨-, behaviour, behaves⟩
  · rw [unmade] at accepted
    cases accepted.1
  · have calls : probe.calls world = fun _ => behaviour := by
      funext call
      rw [Probe.calls, behaves]
    rw [behaves, calls]
    rcases registry.register_eq (probe.registeredOptions config polling) (fun _ => behaviour) with
      ⟨rejection, refused, -⟩ | ⟨-, entered⟩
    · rw [accepts] at refused
      cases refused
    · exact congrArg (Except.mapError Error.registry) entered

/-- Probes that meet no obstacle are registered one after the other. -/
theorem ofProbes_append (world : World) {registry : Registry} (alive : registry.destroyed = false)
    {before : List Probe}
    (accepted : ∀ probe ∈ before, probe.obstacle? config polling = none) (rest : List Probe) :
    let whole := Enrolment.ofProbes config world polling registry (before ++ rest)
    let later := Enrolment.ofProbes config world polling
      (registry.run (before.map (·.registering config world polling))) rest
    whole.registry = later.registry ∧ whole.count = before.length + later.count ∧
      whole.error = later.error := by
  induction before generalizing registry with
  | nil => simp [Registry.run]
  | cons probe before ih =>
      have own := accepted probe List.mem_cons_self
      have alive_next : (registry.step (probe.registering config world polling)).destroyed =
          false := by
        rw [← Bool.not_eq_true, Registry.destroyed_step, alive]
        simp [Probe.registering]
      have others := ih alive_next fun other other_mem =>
        accepted other (List.mem_cons_of_mem _ other_mem)
      have counted := others.2.1
      rw [List.cons_append, Enrolment.ofProbes, enrol_of_accepted alive own]
      refine ⟨others.1, ?_, others.2.2⟩
      simp only [List.length_cons, counted]
      exact Nat.add_right_comm _ _ _

/-- A registry in which exactly some probes are registered, under the names that they bring and in
the order in which these come first. The last probe of a name counts. -/
structure Enrolled (config : Config) (world : World) (polling : Bool) (probes : List Probe)
    (registry : Registry) : Prop where
  names : registry.names = (probes.map (·.name)).eraseDups
  found : ∀ before probe after, probes = before ++ probe :: after →
    probe.name ∉ after.map (·.name) →
      ∃ registration behaviour, registry.find? probe.name = some registration ∧
        registration.options = probe.registeredOptions config polling ∧
        probe.behaviour world = .ok behaviour ∧ registration.probe = fun _ => behaviour
  polling : ∀ name, registry.scheduler.isPolling name = true ↔
    ∃ registration, registry.find? name = some registration ∧
      registration.options.interval.isSome = true

theorem eraseDups_concat (names : List String) (name : String) :
    (names ++ [name]).eraseDups =
      if name ∈ names.eraseDups then names.eraseDups else names.eraseDups ++ [name] := by
  rw [List.eraseDups_append]
  by_cases known : name ∈ names
  · simp [known, List.removeAll, List.mem_eraseDups]
  · simp [known, List.removeAll, List.mem_eraseDups, List.eraseDups_cons]

theorem eraseDups_of_nodup {names : List String} (nodup : names.Nodup) :
    names.eraseDups = names := by
  induction names using List.reverseRecOn with
  | nil => rfl
  | append_singleton earlier last ih =>
      rw [List.nodup_append_comm, List.singleton_append, List.nodup_cons] at nodup
      rw [eraseDups_concat, ih nodup.2, if_neg nodup.1]

section Registering

variable {registry : Registry} {probes : List Probe}

theorem alive_registering (alive : registry.destroyed = false) (probes : List Probe) :
    (registry.run (probes.map (·.registering config world polling))).destroyed = false := by
  rw [← Bool.not_eq_true, Registry.destroyed_run, alive]
  simp [Probe.registering]

theorem run_registering_concat (alive : registry.destroyed = false) (earlier : List Probe)
    (accepted : probe.obstacle? config polling = none) :
    registry.run ((earlier ++ [probe]).map (·.registering config world polling)) =
      (registry.run (earlier.map (·.registering config world polling))).enter
        (probe.registeredOptions config polling) (probe.calls world) := by
  have accepts : (registry.run (earlier.map (·.registering config world polling))).accepts
      (probe.registeredOptions config polling) = true := by
    rw [Registry.accepts, (Probe.obstacle?_eq_none_iff.mp accepted).2, alive_registering alive]
    rfl
  rw [List.map_append, List.map_singleton, Registry.run_concat, Probe.registering,
    Registry.step_register, if_pos accepts]

theorem names_registering (alive : registry.destroyed = false)
    (fresh : registry.registrations = [])
    (accepted : ∀ probe ∈ probes, probe.obstacle? config polling = none) :
    (registry.run (probes.map (·.registering config world polling))).names =
      (probes.map (·.name)).eraseDups := by
  induction probes using List.reverseRecOn with
  | nil =>
      have nameless : registry.names = [] := List.map_eq_nil_iff.mpr fresh
      exact nameless
  | append_singleton earlier last ih =>
      have names := ih fun probe probe_mem => accepted probe (List.mem_append_left _ probe_mem)
      rw [run_registering_concat alive earlier (accepted last (by simp)), Registry.names_enter,
        names, Probe.name_registeredOptions, List.map_append, List.map_singleton,
        eraseDups_concat]

/-- Later registrations of other names leave a registration as it is. -/
theorem find?_registering (world : World) (alive : registry.destroyed = false)
    (before after : List Probe)
    (accepted : ∀ other ∈ before ++ probe :: after, other.obstacle? config polling = none)
    (last : probe.name ∉ after.map (·.name)) :
    ∃ serial, (registry.run ((before ++ probe :: after).map
        (·.registering config world polling))).find? probe.name =
      some ⟨serial, probe.registeredOptions config polling, probe.calls world⟩ := by
  induction after using List.reverseRecOn with
  | nil =>
      rw [run_registering_concat alive before (accepted probe (by simp)), Registry.find?_enter,
        if_pos Probe.name_registeredOptions]
      exact ⟨_, rfl⟩
  | append_singleton after other ih =>
      rw [List.map_append, List.mem_append, not_or] at last
      have unlike : (other.registeredOptions config polling).name ≠ probe.name := by
        rw [Probe.name_registeredOptions]
        exact fun same => last.2 (by simp [same])
      have regroup : before ++ probe :: (after ++ [other]) =
          (before ++ probe :: after) ++ [other] := by simp
      rw [regroup] at accepted ⊢
      rw [run_registering_concat alive _ (accepted other (by simp)), Registry.find?_enter,
        if_neg unlike]
      exact ih (fun earlier earlier_mem => accepted earlier (List.mem_append_left _ earlier_mem))
        last.1

end Registering

theorem enrolled_registering (world : World) (version : String) (created : Nat)
    (actions : List Registry.Action) {probes : List Probe}
    (fresh : ((Registry.create version created).run actions).registrations = [])
    (alive : ((Registry.create version created).run actions).destroyed = false)
    (accepted : ∀ probe ∈ probes, probe.obstacle? config polling = none) :
    Enrolled config world polling probes
      (((Registry.create version created).run actions).run
        (probes.map (·.registering config world polling))) where
  names := names_registering alive fresh accepted
  found := by
    rintro before probe after rfl last
    rcases find?_registering world alive before after accepted last with ⟨serial, found⟩
    have made := (Probe.obstacle?_eq_none_iff.mp (accepted probe (by simp))).1
    rcases probe.behaviour_eq world with ⟨fault, unmade, -⟩ | ⟨-, behaviour, behaves⟩
    · rw [made] at unmade
      cases unmade
    · refine ⟨_, behaviour, found, rfl, behaves, ?_⟩
      funext call
      simp only [Probe.calls, behaves]
  polling := by
    intro name
    rw [← Registry.run_append]
    exact (Registry.coherent_run version created _).isPolling_iff name

section Valid

theorem isToken_of_mem_methods : ∀ method ∈ methods, Http.isToken method = true := by
  decide

theorem HttpCheck.method_mem_of_fault?_eq_none {check : HttpCheck} (valid : check.fault? = none) :
    Text.capitals check.method ∈ methods := by
  unfold HttpCheck.fault? at valid
  split at valid
  · cases valid
  · split at valid
    · cases valid
    · split at valid
      · cases valid
      · split at valid
        · cases valid
        · next known => exact not_not.mp known

theorem ProbeKind.methodFault?_eq_none {kind : ProbeKind} (valid : kind.fault? = none) :
    kind.methodFault? = none := by
  cases kind with
  | http check =>
      have token := isToken_of_mem_methods _ (HttpCheck.method_mem_of_fault?_eq_none valid)
      simp [methodFault?, HttpCheck.requestMethod?, token]
  | memory thresholds => rfl
  | disk path thresholds => rfl

theorem Probe.fault?_eq_none_iff {earlier : List String} :
    probe.fault? earlier = none ↔
      Text.isBlankText probe.name = false ∧ probe.name ∉ earlier ∧ probe.timeout ≠ some 0 ∧
        probe.interval ≠ some 0 ∧ probe.kind.fault? = none := by
  unfold Probe.fault?
  cases Text.isBlankText probe.name with
  | true => simp
  | false =>
      by_cases repeated : probe.name ∈ earlier
      · simp [repeated]
      · by_cases timeless : probe.timeout = some 0
        · simp [repeated, timeless]
        · by_cases restless : probe.interval = some 0
          · simp [repeated, timeless, restless]
          · simp [repeated, timeless, restless]

theorem Probe.timeout_ne_zero (timed : config.global.defaultTimeout ≠ 0)
    (timeout : probe.timeout ≠ some 0) :
    (probe.timeout.getD config.global.defaultTimeout).toNat ≠ 0 := by
  intro zero
  have none_left : probe.timeout.getD config.global.defaultTimeout = 0 := UInt64.toNat_inj.mp zero
  cases own : probe.timeout with
  | none =>
      rw [own] at none_left
      exact timed none_left
  | some milliseconds =>
      rw [own] at none_left
      exact timeout (by rw [own, ← none_left]; rfl)

/-- A probe that keeps the rules of a configuration meets no obstacle. -/
theorem Probe.obstacle?_of_valid {earlier : List String} (timed : config.global.defaultTimeout ≠ 0)
    (valid : probe.fault? earlier = none) : probe.obstacle? config polling = none := by
  rcases Probe.fault?_eq_none_iff.mp valid with ⟨named, -, timeout, interval, kind⟩
  rw [Probe.obstacle?_eq_none_iff, Options.fault?_eq_none_iff, Probe.name_registeredOptions,
    Probe.timeout_registeredOptions, Probe.interval_registeredOptions]
  refine ⟨ProbeKind.methodFault?_eq_none kind, named, Probe.timeout_ne_zero timed timeout, ?_⟩
  split
  · intro zero
    rcases Option.map_eq_some_iff.mp zero with ⟨milliseconds, isInterval, isZero⟩
    have same : milliseconds = 0 := UInt64.toNat_inj.mp isZero
    exact interval (by rw [isInterval, same])
  · simp

/-- Where no rule is broken, the names are different, and each probe keeps the rules for probes. -/
theorem valid_of_probesViolation? {earlier : List String} {probes : List Probe}
    (valid : probesViolation? earlier probes = none) :
    (probes.map (·.name)).Nodup ∧
      ∀ probe ∈ probes, probe.name ∉ earlier ∧ ∃ before, probe.fault? before = none := by
  induction probes generalizing earlier with
  | nil => simp
  | cons probe rest ih =>
      rw [probesViolation?] at valid
      split at valid
      · cases valid
      · next faultless =>
          rcases ih valid with ⟨nodup, others⟩
          constructor
          · rw [List.map_cons, List.nodup_cons]
            refine ⟨?_, nodup⟩
            intro repeated
            rcases List.mem_map.mp repeated with ⟨other, other_mem, sameName⟩
            exact (others other other_mem).1 (by simp [sameName])
          · intro other other_mem
            rcases List.mem_cons.mp other_mem with rfl | later
            · exact ⟨(Probe.fault?_eq_none_iff.mp faultless).2.1, earlier, faultless⟩
            · rcases others other later with ⟨unknown, kept⟩
              exact ⟨fun known => unknown (List.mem_cons_of_mem _ known), kept⟩

end Valid

theorem violation?_eq_none_iff :
    config.violation? = none ↔ config.global.violation? = none ∧ config.web.violation? = none ∧
      probesViolation? [] config.probes = none := by
  unfold Config.violation?
  cases config.global.violation? with
  | some violation => simp
  | none => cases config.web.violation? <;> simp

theorem Global.defaultTimeout_ne_zero {global : Global} (valid : global.violation? = none) :
    global.defaultTimeout ≠ 0 := by
  intro zero
  simp [Global.violation?, zero] at valid

/-- A configuration that keeps its rules has different names, and none of its probes meets an
obstacle. -/
theorem accepted_of_valid (polling : Bool) (valid : config.violation? = none) :
    (config.probes.map (·.name)).Nodup ∧
      ∀ probe ∈ config.probes, probe.obstacle? config polling = none := by
  rcases violation?_eq_none_iff.mp valid with ⟨general, -, each⟩
  have timed := Global.defaultTimeout_ne_zero general
  rcases valid_of_probesViolation? each with ⟨nodup, kept⟩
  refine ⟨nodup, ?_⟩
  intro probe probe_mem
  rcases (kept probe probe_mem).2 with ⟨earlier, faultless⟩
  exact Probe.obstacle?_of_valid timed faultless

section Outcome

variable {registry : Registry}

theorem ofProbes_of_accepted (world : World) (alive : registry.destroyed = false)
    {probes : List Probe}
    (accepted : ∀ probe ∈ probes, probe.obstacle? config polling = none) :
    let enrolment := Enrolment.ofProbes config world polling registry probes
    enrolment.registry = registry.run (probes.map (·.registering config world polling)) ∧
      enrolment.outcome = .ok probes.length := by
  have whole := ofProbes_append world alive accepted []
  rw [List.append_nil] at whole
  refine ⟨whole.1, ?_⟩
  rw [Enrolment.outcome, whole.2.2, whole.2.1]
  rfl

theorem ofProbes_of_obstacle (world : World) (alive : registry.destroyed = false)
    {before : List Probe}
    (accepted : ∀ probe ∈ before, probe.obstacle? config polling = none) {error : Error}
    (obstacle : probe.obstacle? config polling = some error) (rest : List Probe) :
    let enrolment := Enrolment.ofProbes config world polling registry (before ++ probe :: rest)
    enrolment.registry = registry.run (before.map (·.registering config world polling)) ∧
      enrolment.outcome = .error error := by
  have whole := ofProbes_append world alive accepted (probe :: rest)
  rw [Enrolment.ofProbes, enrol_of_obstacle obstacle] at whole
  refine ⟨whole.1, ?_⟩
  rw [Enrolment.outcome, whole.2.2]

end Outcome

namespace Enrolled

variable {registry : Registry} {probes : List Probe}

theorem find?_of_mem (enrolled : Enrolled config world polling probes registry)
    (nodup : (probes.map (·.name)).Nodup) (probe_mem : probe ∈ probes) :
    ∃ registration, registry.find? probe.name = some registration ∧
      registration.options = probe.registeredOptions config polling := by
  rcases List.append_of_mem probe_mem with ⟨before, after, parts⟩
  have last : probe.name ∉ after.map (·.name) := by
    rw [parts, List.map_append, List.map_cons, List.nodup_append] at nodup
    exact (List.nodup_cons.mp nodup.2.1).1
  rcases enrolled.found before probe after parts last with
    ⟨registration, behaviour, found, options, -, -⟩
  exact ⟨registration, found, options⟩

/-- Only the probes that ask for it are polled, and only if polling is wanted. -/
theorem isPolling_iff (enrolled : Enrolled config world polling probes registry)
    (nodup : (probes.map (·.name)).Nodup) (name : String) :
    registry.scheduler.isPolling name = true ↔
      polling = true ∧ ∃ probe ∈ probes, probe.name = name ∧ probe.interval.isSome = true := by
  have interval_isSome (probe : Probe) :
      (probe.registeredOptions config polling).interval.isSome = true ↔
        polling = true ∧ probe.interval.isSome = true := by
    rw [Probe.interval_registeredOptions]
    cases polling <;> simp
  rw [enrolled.polling]
  constructor
  · rintro ⟨registration, found, asked⟩
    have name_mem : name ∈ registry.names := by
      rw [Registry.mem_names_iff_find?, found]
      rfl
    rw [enrolled.names, List.mem_eraseDups] at name_mem
    rcases List.mem_map.mp name_mem with ⟨probe, probe_mem, rfl⟩
    rcases enrolled.find?_of_mem nodup probe_mem with ⟨same, sameFound, options⟩
    obtain rfl : registration = same := Option.some.inj (found.symm.trans sameFound)
    rw [options, interval_isSome] at asked
    exact ⟨asked.1, probe, probe_mem, rfl, asked.2⟩
  · rintro ⟨wanted, probe, probe_mem, rfl, asked⟩
    rcases enrolled.find?_of_mem nodup probe_mem with ⟨registration, found, options⟩
    refine ⟨registration, found, ?_⟩
    rw [options, interval_isSome]
    exact ⟨wanted, asked⟩

end Enrolled

/-- A configuration that keeps its rules is registered completely in a registry that is empty and
not destroyed: all its names in their order, each probe with its severity and with a timeout that
is not zero, and polled if it asks for it and polling is wanted. Of any other configuration too,
all probes are registered if none meets an obstacle; else exactly those before the first obstacle,
which is the error. -/
theorem enrolment_of_config (version : String) (created : Nat) (actions : List Registry.Action)
    (config : Config) (world : World) (polling : Bool) :
    let registry := (Registry.create version created).run actions
    let enrolment := Enrolment.ofConfig config world polling registry
    let after := enrolment.registry
    registry.registrations = [] → registry.destroyed = false →
      (config.violation? = none →
        enrolment.outcome = .ok config.probes.length ∧
        after.names = config.probes.map (·.name) ∧
        (∀ probe ∈ config.probes, ∃ registration, after.find? probe.name = some registration ∧
          registration.options.critical = probe.critical ∧
          registration.options.timeout =
            (probe.timeout.getD config.global.defaultTimeout).toNat ∧
          registration.options.timeout ≠ 0) ∧
        (∀ name, after.scheduler.isPolling name = true ↔
          polling = true ∧ ∃ probe ∈ config.probes, probe.name = name ∧
            probe.interval.isSome = true)) ∧
      ((∀ probe ∈ config.probes, probe.obstacle? config polling = none) →
        enrolment.outcome = .ok config.probes.length ∧
        Enrolled config world polling config.probes after) ∧
      (∀ before probe rest error, config.probes = before ++ probe :: rest →
        (∀ earlier ∈ before, earlier.obstacle? config polling = none) →
        probe.obstacle? config polling = some error →
          enrolment.outcome = .error error ∧ Enrolled config world polling before after) := by
  intro registry enrolment after fresh alive
  have all (accepted : ∀ probe ∈ config.probes, probe.obstacle? config polling = none) :
      enrolment.outcome = .ok config.probes.length ∧
        Enrolled config world polling config.probes after := by
    have result := ofProbes_of_accepted world alive accepted
    refine ⟨result.2, ?_⟩
    have enrolled :=
      enrolled_registering world version created actions fresh alive accepted
    rw [← result.1] at enrolled
    exact enrolled
  refine ⟨?_, all, ?_⟩
  · intro valid
    rcases accepted_of_valid polling valid with ⟨nodup, accepted⟩
    rcases all accepted with ⟨outcome, enrolled⟩
    refine ⟨outcome, ?_, ?_, enrolled.isPolling_iff nodup⟩
    · rw [enrolled.names, eraseDups_of_nodup nodup]
    · intro probe probe_mem
      rcases enrolled.find?_of_mem nodup probe_mem with ⟨registration, found, options⟩
      have faultless := (Probe.obstacle?_eq_none_iff.mp (accepted probe probe_mem)).2
      refine ⟨registration, found, ?_, ?_, ?_⟩
      · rw [options, Probe.critical_registeredOptions]
      · rw [options, Probe.timeout_registeredOptions]
      · rw [options]
        exact (Options.fault?_eq_none_iff.mp faultless).2.1
  · intro before probe rest error parts accepted obstacle
    have result := ofProbes_of_obstacle world alive accepted obstacle rest
    have enrolled :=
      enrolled_registering world version created actions fresh alive accepted
    rw [← parts] at result
    rw [← result.1] at enrolled
    exact ⟨result.2, enrolled⟩

theorem enrolment_of_unknown_method :
    let fetch (name method : String) (interval : Option UInt64) : Probe :=
      ⟨name, true, none, interval, .http ⟨"http://localhost/", method, [200], []⟩⟩
    let valid : Config :=
      ⟨.default, .default, [fetch "db" "get" (some 500), fetch "api" "PUT" none]⟩
    let invalid : Config := ⟨.default, .default, [fetch "db" "get" none, fetch "api" "GE T" none]⟩
    let world : World := ⟨.offline, Inhabited.default⟩
    let registry := (Registry.create "1.0.0" 0).run [.advance 5]
    (Enrolment.ofConfig valid world true registry).outcome = .ok 2 ∧
      (Enrolment.ofConfig valid world true registry).registry.scheduler.isPolling "db" = true ∧
      (Enrolment.ofConfig invalid world true registry).outcome =
        .error (.other "无效的HTTP方法: GE T") := by
  intro fetch valid invalid world registry
  have general := enrolment_of_config "1.0.0" 0 [.advance 5] valid world true rfl rfl
  have accepted := general.1 (by decide +kernel)
  refine ⟨accepted.1, ?_, ?_⟩
  · exact (accepted.2.2.2 "db").mpr ⟨rfl, fetch "db" "get" (some 500), by simp [valid], rfl, rfl⟩
  · have stopped := enrolment_of_config "1.0.0" 0 [.advance 5] invalid world true rfl rfl
    refine (stopped.2.2 [fetch "db" "get" none] (fetch "api" "GE T" none) [] _ rfl ?_ ?_).1
    · intro earlier earlier_mem
      rw [List.mem_singleton.mp earlier_mem]
      decide +kernel
    · decide +kernel

end Config

end Vitals
