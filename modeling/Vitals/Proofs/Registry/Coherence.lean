import Mathlib.Data.List.Nodup
import Vitals.Proofs.Polling.Effects
import Vitals.Proofs.Registry.Runs

/-!
# Coherence of a registry

Registrations, timers and cached results are kept apart from each other. They fit together after
every run: a timer runs for exactly those registrations that ask for one, and only a name with a
timer has a cached result. Both would break on a timer that outlives its registration, so the
invariant speaks of the timers' registrations themselves and not of their names alone.
-/

namespace Vitals

namespace Named

/-- A map in which nothing is found is empty. -/
theorem eq_nil_of_get? {α : Type} {map : Named α} (absent : ∀ name, map.get? name = none) :
    map = [] := by
  cases map with
  | nil => rfl
  | cons entry rest =>
      rcases entry with ⟨name, value⟩
      have found : get? ((name, value) :: rest) name = some value := by simp [get?]
      rw [absent name] at found
      cases found

end Named

namespace Registry

section Place

variable {registration other : Registration} {registrations : List Registration}

theorem names_place :
    (place registration registrations).map (·.options.name) =
      if registration.options.name ∈ registrations.map (·.options.name) then
        registrations.map (·.options.name)
      else registrations.map (·.options.name) ++ [registration.options.name] := by
  induction registrations with
  | nil => rfl
  | cons existing rest ih =>
      unfold place
      by_cases same : existing.options.name = registration.options.name
      · simp [same]
      · rw [if_neg same, List.map_cons, ih]
        by_cases known : registration.options.name ∈ rest.map (·.options.name)
        · simp only [known, if_true, List.map_cons, List.mem_cons, or_true]
        · simp only [known, if_false, List.map_cons, List.mem_cons, Ne.symm same, or_false,
            List.cons_append]

theorem nodup_names_place (nodup : (registrations.map (·.options.name)).Nodup) :
    ((place registration registrations).map (·.options.name)).Nodup := by
  rw [names_place]
  split
  · exact nodup
  · next unknown => simpa using nodup.concat unknown

/-- A registration takes the place of its name and leaves all other names alone. -/
theorem mem_place (nodup : (registrations.map (·.options.name)).Nodup) :
    other ∈ place registration registrations ↔
      other = registration ∨
        other ∈ registrations ∧ other.options.name ≠ registration.options.name := by
  induction registrations with
  | nil => simp [place]
  | cons existing rest ih =>
      rw [List.map_cons, List.nodup_cons] at nodup
      unfold place
      by_cases same : existing.options.name = registration.options.name
      · have elsewhere : ∀ other ∈ rest, other.options.name ≠ registration.options.name := by
          intro other other_mem named
          apply nodup.1
          rw [same, ← named]
          exact List.mem_map_of_mem other_mem
        rw [if_pos same, List.mem_cons, List.mem_cons]
        constructor
        · rintro (rfl | other_mem)
          · exact Or.inl rfl
          · exact Or.inr ⟨Or.inr other_mem, elsewhere other other_mem⟩
        · rintro (rfl | ⟨rfl | other_mem, unlike⟩)
          · exact Or.inl rfl
          · exact absurd same unlike
          · exact Or.inr other_mem
      · rw [if_neg same, List.mem_cons, List.mem_cons, ih nodup.2]
        constructor
        · rintro (rfl | rfl | ⟨other_mem, unlike⟩)
          · exact Or.inr ⟨Or.inl rfl, same⟩
          · exact Or.inl rfl
          · exact Or.inr ⟨Or.inr other_mem, unlike⟩
        · rintro (rfl | ⟨rfl | other_mem, unlike⟩)
          · exact Or.inr (Or.inl rfl)
          · exact Or.inl rfl
          · exact Or.inr (Or.inr ⟨other_mem, unlike⟩)

end Place

theorem find?_eq_some_iff {registry : Registry} (nodup : registry.names.Nodup) {name : String}
    {registration : Registration} :
    registry.find? name = some registration ↔
      registration ∈ registry.registrations ∧ registration.options.name = name := by
  constructor
  · intro found
    exact ⟨List.mem_of_find?_eq_some found, by simpa using List.find?_some found⟩
  · rintro ⟨registration_mem, rfl⟩
    cases found : registry.find? registration.options.name with
    | none => simpa using List.find?_eq_none.mp found registration registration_mem
    | some first =>
        have first_mem := List.mem_of_find?_eq_some found
        have sameName : first.options.name = registration.options.name := by
          simpa using List.find?_some found
        rw [List.inj_on_of_nodup_map nodup first_mem registration_mem sameName]

/-- How registrations, timers and cached results fit together. -/
structure Coherent (registry : Registry) : Prop where
  names_nodup : registry.names.Nodup
  mem_polled : ∀ registration, registration ∈ registry.scheduler.polled ↔
    registration ∈ registry.registrations ∧ registration.options.interval.isSome = true
  polled_of_cached : ∀ name result, registry.scheduler.cached name = some result →
    ∃ registration ∈ registry.scheduler.polled, registration.options.name = name
  empty_of_destroyed : registry.destroyed = true → registry.registrations = []

theorem coherent_create (version : String) (created : Nat) : (create version created).Coherent where
  names_nodup := List.nodup_nil
  mem_polled := by
    intro registration
    simp [create, Scheduler.startingAt, Scheduler.polled]
  polled_of_cached := by
    intro name result cached
    simp [create, Scheduler.startingAt, Scheduler.cached, Named.get?] at cached
  empty_of_destroyed := fun _ => rfl

namespace Coherent

variable {registry : Registry}

theorem enter (coherent : registry.Coherent) {options : Options}
    (accepted : registry.accepts options = true) (probe : Probe) :
    (registry.enter options probe).Coherent where
  names_nodup := nodup_names_place coherent.names_nodup
  mem_polled := by
    intro registration
    simp only [Registry.enter, Scheduler.polled_launch, mem_place coherent.names_nodup,
      List.mem_append, List.mem_filter, coherent.mem_polled, bne_iff_ne]
    constructor
    · rintro (⟨⟨registration_mem, polled⟩, unlike⟩ | new)
      · exact ⟨Or.inr ⟨registration_mem, unlike⟩, polled⟩
      · split at new
        · next polled =>
            rw [List.mem_singleton] at new
            subst new
            exact ⟨Or.inl rfl, polled⟩
        · exact absurd new List.not_mem_nil
    · rintro ⟨rfl | ⟨registration_mem, unlike⟩, polled⟩
      · refine Or.inr ?_
        have asked : options.interval.isSome = true := polled
        simp [asked]
      · exact Or.inl ⟨⟨registration_mem, polled⟩, unlike⟩
  polled_of_cached := by
    intro name result cached
    simp only [Registry.enter, Scheduler.cached_launch] at cached
    simp only [Registry.enter, Scheduler.polled_launch]
    -- An old result under the new name survives only if a timer takes over.
    by_cases same : name = options.name
    · cases interval : options.interval with
      | none => simp [same, interval] at cached
      | some period =>
          refine ⟨registry.scheduler.ledger.registration options probe, ?_, same.symm⟩
          simp
    · simp only [same, false_and, if_false] at cached
      rcases coherent.polled_of_cached name result cached with ⟨registration, polled, named⟩
      refine ⟨registration, ?_, named⟩
      simp [polled, named, same]
  empty_of_destroyed := by
    intro destroyed
    have alive : registry.destroyed = false := by
      simp only [accepts, Bool.and_eq_true, Bool.not_eq_true'] at accepted
      exact accepted.2
    rw [Registry.enter, alive] at destroyed
    cases destroyed

theorem unregister (coherent : registry.Coherent) (name : String) :
    (registry.unregister name).Coherent where
  names_nodup := coherent.names_nodup.sublist (List.filter_sublist.map _)
  mem_polled := by
    intro registration
    simp only [Registry.unregister, Scheduler.polled_stop, List.mem_filter, coherent.mem_polled]
    exact and_right_comm
  polled_of_cached := by
    intro other result cached
    simp only [Registry.unregister, Scheduler.cached_stop] at cached
    split at cached
    · cases cached
    · next unlike =>
        rcases coherent.polled_of_cached other result cached with ⟨registration, polled, named⟩
        refine ⟨registration, ?_, named⟩
        simp [Registry.unregister, polled, named, unlike]
  empty_of_destroyed := by
    intro destroyed
    simp [Registry.unregister, coherent.empty_of_destroyed destroyed]

theorem destroy (coherent : registry.Coherent) : registry.destroy.Coherent := by
  unfold Registry.destroy
  split
  · exact coherent
  · exact {
      names_nodup := List.nodup_nil
      mem_polled := by simp
      polled_of_cached := by simp
      empty_of_destroyed := fun _ => rfl }

/-- Whatever the scheduler does without starting or stopping a timer, coherence stays. -/
theorem of_polled_eq (coherent : registry.Coherent) {next : Registry} (order : Scheduler.Action)
    (registrations : next.registrations = registry.registrations)
    (destroyed : next.destroyed = registry.destroyed)
    (scheduler : next.scheduler = registry.scheduler.step order)
    (polled : (registry.scheduler.step order).polled = registry.scheduler.polled) :
    next.Coherent where
  names_nodup := by
    rw [names, registrations]
    exact coherent.names_nodup
  mem_polled := by
    rw [scheduler, polled, registrations]
    exact coherent.mem_polled
  polled_of_cached := by
    intro name result cached
    rw [scheduler] at cached ⊢
    rw [polled]
    rcases registry.scheduler.cached_step_eq_some name cached with
      earlier | ⟨delivery, delivery_mem, named, _⟩
    · exact coherent.polled_of_cached name result earlier
    · exact ⟨delivery.registration,
        registry.scheduler.registration_mem_of_stepDeliveries delivery_mem, named⟩
  empty_of_destroyed := by
    rw [registrations, destroyed]
    exact coherent.empty_of_destroyed

theorem step (coherent : registry.Coherent) (action : Action) :
    (registry.step action).Coherent := by
  cases action with
  | register options probe =>
      rw [step_register]
      split
      · next accepted => exact coherent.enter accepted probe
      · exact coherent
  | unregister name => exact coherent.unregister name
  | destroy => exact coherent.destroy
  | ask question =>
      exact coherent.of_polled_eq (.inquire (registry.inquiry question)) rfl rfl rfl
        (Scheduler.polled_step _ _)
  | abandon ticket =>
      exact coherent.of_polled_eq (.abandon ticket) rfl rfl rfl (Scheduler.polled_step _ _)
  | advance milliseconds =>
      exact coherent.of_polled_eq (.advance milliseconds) rfl rfl rfl
        (Scheduler.polled_step _ _)
  | pass milliseconds turns =>
      exact coherent.of_polled_eq (.pass milliseconds turns) rfl rfl rfl
        (Scheduler.polled_step _ _)

theorem isPolling_iff (coherent : registry.Coherent) (name : String) :
    registry.scheduler.isPolling name = true ↔
      ∃ registration, registry.find? name = some registration ∧
        registration.options.interval.isSome = true := by
  rw [Scheduler.isPolling_eq_true]
  constructor
  · rintro ⟨registration, polled, named⟩
    have registered := (coherent.mem_polled registration).mp polled
    exact ⟨registration, (find?_eq_some_iff coherent.names_nodup).mpr ⟨registered.1, named⟩,
      registered.2⟩
  · rintro ⟨registration, found, asked⟩
    have registered := (find?_eq_some_iff coherent.names_nodup).mp found
    exact ⟨registration, (coherent.mem_polled registration).mpr ⟨registered.1, asked⟩,
      registered.2⟩

theorem isPolling_of_cached (coherent : registry.Coherent) {name : String}
    (cached : (registry.scheduler.cached name).isSome = true) :
    registry.scheduler.isPolling name = true := by
  rcases Option.isSome_iff_exists.mp cached with ⟨result, isResult⟩
  exact (Scheduler.isPolling_eq_true _ _).mpr (coherent.polled_of_cached name result isResult)

theorem timers_eq_nil (coherent : registry.Coherent) (destroyed : registry.destroyed = true) :
    registry.scheduler.timers = [] := by
  have unpolled : registry.scheduler.polled = [] := by
    rw [List.eq_nil_iff_forall_not_mem]
    intro registration polled
    have registered := ((coherent.mem_polled registration).mp polled).1
    rw [coherent.empty_of_destroyed destroyed] at registered
    exact absurd registered List.not_mem_nil
  exact List.map_eq_nil_iff.mp unpolled

theorem latest_eq_nil (coherent : registry.Coherent) (destroyed : registry.destroyed = true) :
    registry.scheduler.latest = [] := by
  apply Named.eq_nil_of_get?
  intro name
  cases cached : registry.scheduler.latest.get? name with
  | none => rfl
  | some result =>
      rcases coherent.polled_of_cached name result cached with ⟨registration, polled, _⟩
      rw [Scheduler.polled, coherent.timers_eq_nil destroyed] at polled
      exact absurd polled List.not_mem_nil

end Coherent

theorem coherent_run (version : String) (created : Nat) (actions : List Action) :
    ((create version created).run actions).Coherent :=
  run_induction Coherent (coherent_create version created)
    (fun _ action coherent => coherent.step action) actions

theorem destroyed_step (registry : Registry) (action : Action) :
    (registry.step action).destroyed = true ↔
      registry.destroyed = true ∨ action = .destroy := by
  cases action with
  | register options probe =>
      rw [step_register]
      split <;> simp [enter]
  | destroy =>
      simp only [step, destroy, or_true, iff_true]
      split
      · assumption
      · rfl
  | _ => simp [step, unregister, ask, abandon, advance, advanceTo, pass]

/-- Nothing but its destruction destroys a registry, and nothing undoes it. -/
theorem destroyed_run (registry : Registry) (actions : List Action) :
    (registry.run actions).destroyed = true ↔
      registry.destroyed = true ∨ .destroy ∈ actions := by
  induction actions generalizing registry with
  | nil => simp [run]
  | cons action rest ih =>
      have tail : (registry.run (action :: rest)).destroyed = true ↔
          (registry.step action).destroyed = true ∨ .destroy ∈ rest := ih (registry.step action)
      rw [tail, destroyed_step, or_assoc, List.mem_cons, @eq_comm _ action]

/-- The lifecycle of timers and cached results. After every run, a timer runs for a name exactly
if the name is registered with an interval, and only such a name has a cached result. A run that
has destroyed the registry, at whatever point, leaves nothing of either. -/
theorem timers_and_results_of_run (version : String) (created : Nat) (actions : List Action) :
    let registry := (create version created).run actions
    (∀ name, registry.scheduler.isPolling name = true ↔
      ∃ registration, registry.find? name = some registration ∧
        registration.options.interval.isSome = true) ∧
    (∀ name, (registry.scheduler.cached name).isSome = true →
      registry.scheduler.isPolling name = true) ∧
    (registry.destroyed = true ↔ .destroy ∈ actions) ∧
    (.destroy ∈ actions → registry.registrations = [] ∧ registry.scheduler.timers = [] ∧
      registry.scheduler.latest = []) := by
  intro registry
  have coherent : registry.Coherent := coherent_run version created actions
  have alive : (create version created).destroyed ≠ true := Bool.false_ne_true
  have destroyed : registry.destroyed = true ↔ .destroy ∈ actions :=
    (destroyed_run _ actions).trans (or_iff_right alive)
  refine ⟨coherent.isPolling_iff, fun _ => coherent.isPolling_of_cached, destroyed, ?_⟩
  intro asked
  have gone := destroyed.mpr asked
  exact ⟨coherent.empty_of_destroyed gone, coherent.timers_eq_nil gone,
    coherent.latest_eq_nil gone⟩

end Registry

end Vitals
