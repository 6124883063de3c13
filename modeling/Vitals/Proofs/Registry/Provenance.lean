import Mathlib.Data.List.Induction
import Vitals.Proofs.Polling.Silence
import Vitals.Proofs.Registry.Coherence

/-!
# Where cached results come from

The cached result of a name should be the last one that the registration of the name has had from
its timer. So it is, except that a registration with an interval which takes the place of another
inherits the cached result of the other, and keeps it until it has one of its own.

For one name an action does one of three things: it leaves the registration in place, and then
what is delivered under the name comes from that registration; it takes the registration away and
the cached result with it; or it is an accepted registration of the name. The proof adds actions at
the end of a run, because the inherited result is known from the run up to the registration.
-/

namespace Vitals

namespace Registry

/-- The result that the registration of a name has had last from its timer. -/
def lastTick? (registry : Registry) (history : List Delivery) (name : String) : Option Result :=
  (registry.find? name).bind fun registration =>
    Delivery.last? (·.isOf name registration.serial) history

/-- What an action delivers. -/
def stepDeliveries (registry : Registry) (action : Action) : List Delivery :=
  registry.scheduler.deliveries (registry.stepOrders action)

theorem stepDeliveries_advance (registry : Registry) (milliseconds : Nat) :
    registry.stepDeliveries (.advance milliseconds) =
      registry.scheduler.stepDeliveries (.advance milliseconds) :=
  List.append_nil _

theorem stepDeliveries_pass (registry : Registry) (milliseconds : Nat) (turns : String → Nat) :
    registry.stepDeliveries (.pass milliseconds turns) =
      registry.scheduler.stepDeliveries (.pass milliseconds turns) :=
  List.append_nil _

theorem stepDeliveries_register (registry : Registry) (options : Options) (probe : Probe) :
    registry.stepDeliveries (.register options probe) = [] := by
  rw [stepDeliveries, stepOrders]
  split <;> rfl

theorem stepDeliveries_destroy (registry : Registry) : registry.stepDeliveries .destroy = [] := by
  rw [stepDeliveries, stepOrders]
  split <;> rfl

theorem deliveries_concat (registry : Registry) (earlier : List Action) (last : Action) :
    registry.deliveries (earlier ++ [last]) =
      registry.deliveries earlier ++ (registry.run earlier).stepDeliveries last := by
  rw [deliveries_append]
  simp only [deliveries, orders, List.append_nil, stepDeliveries]

theorem find?_place (registration : Registration) (registrations : List Registration)
    (name : String) :
    (place registration registrations).find? (·.options.name == name) =
      if registration.options.name = name then some registration
      else registrations.find? (·.options.name == name) := by
  induction registrations with
  | nil =>
      by_cases named : registration.options.name = name
      · simp [place, named]
      · simp [place, named]
  | cons existing rest ih =>
      unfold place
      by_cases same : existing.options.name = registration.options.name
      · by_cases named : registration.options.name = name
        · simp [same, named]
        · simp [same, named]
      · rw [if_neg same, List.find?_cons, List.find?_cons, ih]
        by_cases named : registration.options.name = name
        · have unlike : (existing.options.name == name) = false := by simpa [named] using same
          simp [named, unlike]
        · simp only [named, if_false]

theorem find?_enter (registry : Registry) (options : Options) (probe : Probe) (name : String) :
    (registry.enter options probe).find? name =
      if options.name = name then some (registry.scheduler.ledger.registration options probe)
      else registry.find? name :=
  find?_place (registry.scheduler.ledger.registration options probe) registry.registrations name

theorem names_enter (registry : Registry) (options : Options) (probe : Probe) :
    (registry.enter options probe).names =
      if options.name ∈ registry.names then registry.names
      else registry.names ++ [options.name] :=
  names_place

theorem names_unregister (registry : Registry) (name : String) :
    (registry.unregister name).names = registry.names.filter (· != name) := by
  rw [names, names, unregister, List.filter_map]
  rfl

theorem find?_unregister (registry : Registry) (other name : String) :
    (registry.unregister other).find? name =
      if name = other then none else registry.find? name := by
  simp only [find?, unregister, List.find?_filter]
  by_cases same : name = other
  · simp [same]
  · rw [if_neg same]
    congr 1
    funext registration
    by_cases named : registration.options.name = name
    · simp [named, same]
    · simp [named]

/-- What an action can do for one name. -/
inductive OnName (registry : Registry) (name : String) (action : Action) : Prop where
  | kept
      (found : (registry.step action).find? name = registry.find? name)
      (cached : (registry.step action).scheduler.cached name =
        (Delivery.last? (·.name == name) (registry.stepDeliveries action) <|>
          registry.scheduler.cached name))
  | removed
      (absent : (registry.step action).find? name = none)
      (uncached : (registry.step action).scheduler.cached name = none)
  | registered (options : Options) (probe : Probe)
      (isRegistration : action = .register options probe) (named : options.name = name)
      (accepted : registry.accepts options = true)

theorem onName_step (registry : Registry) (name : String) (action : Action) :
    registry.OnName name action := by
  cases action with
  | register options probe =>
      cases accepted : registry.accepts options with
      | false =>
          apply OnName.kept
          · rw [step_register, accepted]
            rfl
          · rw [step_register, accepted, stepDeliveries_register]
            rfl
      | true =>
          by_cases named : options.name = name
          · exact .registered options probe rfl named accepted
          · apply OnName.kept
            · rw [step_register, if_pos accepted, find?_enter, if_neg named]
            · have unlike : ¬(name = options.name ∧ options.interval = none) :=
                fun both => named both.1.symm
              rw [step_register, if_pos accepted, stepDeliveries_register, enter,
                Scheduler.cached_launch, if_neg unlike]
              rfl
  | unregister other =>
      by_cases same : name = other
      · apply OnName.removed
        · rw [step, find?_unregister, if_pos same]
        · rw [step, unregister, Scheduler.cached_stop, if_pos same]
      · apply OnName.kept
        · rw [step, find?_unregister, if_neg same]
        · rw [step, unregister, Scheduler.cached_stop, if_neg same]
          rfl
  | destroy =>
      cases destroyed : registry.destroyed with
      | false =>
          apply OnName.removed
          · rw [step, destroy, destroyed]
            rfl
          · rw [step, destroy, destroyed]
            rfl
      | true =>
          apply OnName.kept
          · rw [step, destroy, destroyed]
            rfl
          · rw [step, destroy, destroyed, stepDeliveries_destroy]
            rfl
  | ask question => exact .kept rfl rfl
  | abandon ticket => exact .kept rfl rfl
  | advance milliseconds =>
      apply OnName.kept rfl
      rw [stepDeliveries_advance]
      exact registry.scheduler.cached_step name (.advance milliseconds)
  | pass milliseconds turns =>
      apply OnName.kept rfl
      rw [stepDeliveries_pass]
      exact registry.scheduler.cached_step name (.pass milliseconds turns)

/-- What an action delivers under a name comes from the registration of the name. -/
theorem Coherent.find?_of_stepDeliveries {registry : Registry} (coherent : registry.Coherent)
    {action : Action} {delivery : Delivery}
    (delivery_mem : delivery ∈ registry.stepDeliveries action) :
    registry.find? delivery.name = some delivery.registration := by
  have polled : delivery.registration ∈ registry.scheduler.polled := by
    rcases registry.stepOrders_eq action with idle | ⟨order, single, _⟩
    · rw [stepDeliveries, idle] at delivery_mem
      exact absurd delivery_mem List.not_mem_nil
    · rw [stepDeliveries, single] at delivery_mem
      rcases List.mem_append.mp delivery_mem with now | later
      · exact registry.scheduler.registration_mem_of_stepDeliveries now
      · exact absurd later List.not_mem_nil
  have registered := ((coherent.mem_polled delivery.registration).mp polled).1
  exact (find?_eq_some_iff coherent.names_nodup).mpr ⟨registered, rfl⟩

/-- The result that a name still has from the registrations before, when a registration of the
name is accepted. -/
def inherited (registry : Registry) (options : Options) : Option Result :=
  if options.interval.isSome then registry.scheduler.cached options.name else none

/-- In a run, a name is not registered and has no cached result, or its registration was accepted
at some point of the run; then the cached result is the last one of the registration, or else what
it has inherited. -/
def Traced (start : Registry) (actions : List Action) (name : String) : Prop :=
  let registry := start.run actions
  let ticked := registry.lastTick? (start.deliveries actions) name
  (registry.find? name = none ∧ registry.scheduler.cached name = none) ∨
  ∃ before options probe after, actions = before ++ .register options probe :: after ∧
    options.name = name ∧
    let earlier := start.run before
    earlier.accepts options = true ∧
      registry.find? name = some (earlier.scheduler.ledger.registration options probe) ∧
      registry.scheduler.cached name = (ticked <|> earlier.inherited options)

namespace Traced

variable {start : Registry} {earlier : List Action} {last : Action} {name : String}

/-- The registration stays in place, and maybe it delivers. -/
theorem kept (traced : start.Traced earlier name) (coherent : (start.run earlier).Coherent)
    (found : (start.run (earlier ++ [last])).find? name = (start.run earlier).find? name)
    (cached : (start.run (earlier ++ [last])).scheduler.cached name =
      (Delivery.last? (·.name == name) ((start.run earlier).stepDeliveries last) <|>
        (start.run earlier).scheduler.cached name)) :
    start.Traced (earlier ++ [last]) name := by
  rcases traced with ⟨absent, uncached⟩ |
    ⟨before, options, probe, after, split, named, accepted, stored, traced⟩
  · refine Or.inl ⟨found.trans absent, ?_⟩
    have undelivered : Delivery.last? (·.name == name)
        ((start.run earlier).stepDeliveries last) = none := by
      apply Delivery.last?_eq_none
      intro delivery delivery_mem
      rw [beq_eq_false_iff_ne]
      rintro rfl
      rw [coherent.find?_of_stepDeliveries delivery_mem] at absent
      cases absent
    rw [cached, undelivered, uncached]
    rfl
  · refine Or.inr ⟨before, options, probe, after ++ [last], by simp [split], named, accepted,
      found.trans stored, ?_⟩
    have fromStored : Delivery.last? (·.name == name) ((start.run earlier).stepDeliveries last) =
        Delivery.last?
          (·.isOf name ((start.run before).scheduler.ledger.registration options probe).serial)
          ((start.run earlier).stepDeliveries last) := by
      apply Delivery.last?_congr
      intro delivery delivery_mem
      by_cases sameName : delivery.name = name
      · subst sameName
        have same := (coherent.find?_of_stepDeliveries delivery_mem).symm.trans stored
        simp [Delivery.isOf, Option.some.inj same]
      · simp [Delivery.isOf, sameName]
    rw [cached, fromStored, traced]
    simp only [lastTick?, found, stored, Option.bind_some, deliveries_concat, Delivery.last?_append,
      Option.orElse_eq_orElse, Option.orElse_eq_or, Option.or_assoc]

/-- A registration that has just been accepted has had no result yet: its number is new. -/
theorem registered (numbered : start.scheduler.Numbered) {options : Options} (probe : Probe)
    (accepted : (start.run earlier).accepts options = true) :
    start.Traced (earlier ++ [.register options probe]) options.name := by
  have entered : start.run (earlier ++ [.register options probe]) =
      (start.run earlier).enter options probe := by
    rw [run_concat, step_register, if_pos accepted]
  have stored : ((start.run earlier).enter options probe).find? options.name =
      some ((start.run earlier).scheduler.ledger.registration options probe) := by
    rw [find?_enter, if_pos rfl]
  refine Or.inr ⟨earlier, options, probe, [], rfl, rfl, accepted, ?_, ?_⟩
  · rw [entered, stored]
  · have unticked : Delivery.last? (·.isOf options.name
          ((start.run earlier).scheduler.ledger.registration options probe).serial)
        (start.deliveries earlier) = none := by
      apply Delivery.last?_eq_none
      intro delivery delivery_mem
      have given := numbered.deliveries delivery_mem
      rw [← scheduler_run] at given
      simp only [Delivery.isOf, Bool.and_eq_false_iff, beq_eq_false_iff_ne]
      by_cases named : delivery.name = options.name
      · rw [named] at given
        exact Or.inr (Nat.ne_of_lt given)
      · exact Or.inl named
    rw [entered, lastTick?, stored, Option.bind_some, deliveries_concat, stepDeliveries_register,
      List.append_nil, unticked, enter, Scheduler.cached_launch, inherited]
    cases options.interval with
    | none => simp
    | some period => simp

end Traced

theorem traced_of_run (version : String) (created : Nat) (actions : List Action) (name : String) :
    (create version created).Traced actions name := by
  have numbered : (create version created).scheduler.Numbered :=
    Scheduler.numbered_startingAt created
  induction actions using List.reverseRecOn with
  | nil => exact Or.inl ⟨rfl, rfl⟩
  | append_singleton earlier last ih =>
      cases ((create version created).run earlier).onName_step name last with
      | kept found cached =>
          rw [← run_concat] at found cached
          exact ih.kept (coherent_run version created earlier) found cached
      | removed absent uncached =>
          rw [← run_concat] at absent uncached
          exact Or.inl ⟨absent, uncached⟩
      | registered options probe isRegistration named accepted =>
          subst isRegistration named
          exact Traced.registered numbered probe accepted

/-- Where the cached result of a name comes from. If the name is registered, the cached result is
what the registration has had last from its timer, exactly if it has had anything or has inherited
nothing. Without an interval it inherits nothing, and without a registration nothing is cached. -/
theorem cached_of_run (version : String) (created : Nat) (actions : List Action) (name : String) :
    let registry := (create version created).run actions
    let ticked := registry.lastTick? ((create version created).deliveries actions) name
    (registry.find? name = none ∧ registry.scheduler.cached name = none ∧ ticked = none) ∨
    ∃ before options probe after, actions = before ++ .register options probe :: after ∧
      options.name = name ∧
      let earlier := (create version created).run before
      earlier.accepts options = true ∧
        registry.find? name = some (earlier.scheduler.ledger.registration options probe) ∧
        registry.scheduler.cached name = (ticked <|> earlier.inherited options) ∧
        (registry.scheduler.cached name = ticked ↔
          ticked.isSome = true ∨ earlier.inherited options = none) := by
  intro registry ticked
  rcases traced_of_run version created actions name with ⟨absent, uncached⟩ |
    ⟨before, options, probe, after, split, named, accepted, stored, traced⟩
  · have unticked : ticked = none := by
      simp only [ticked, lastTick?, registry, absent, Option.bind_none]
    exact Or.inl ⟨absent, uncached, unticked⟩
  · refine Or.inr ⟨before, options, probe, after, split, named, accepted, stored, traced, ?_⟩
    have cached_eq : registry.scheduler.cached name =
        (ticked <|> ((create version created).run before).inherited options) := traced
    rw [cached_eq]
    cases ticked with
    | none => simp
    | some result => simp

/-- A name that is registered anew with an interval still shows the result of the probe that was
replaced. -/
theorem cached_of_replaced_registration :
    ¬∀ (version : String) (created : Nat) (actions : List Action) (name : String),
      let registry := (create version created).run actions
      registry.scheduler.cached name =
        registry.lastTick? ((create version created).deliveries actions) name := by
  intro claim
  have stale := claim "1.0.0" 0
    [.register ⟨"db", 50, false, some 10⟩ fun _ => .ends 0 (.returned (.healthy "db")),
      .advance 15,
      .register ⟨"db", 50, false, some 10⟩ fun _ => .ends 0 (.returned (.degraded "db" "slow"))]
    "db"
  exact absurd (congrArg Option.isSome stale) (by decide +kernel)

end Registry

end Vitals
