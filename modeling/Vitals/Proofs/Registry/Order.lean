import Vitals.Proofs.Registry.FanOut
import Vitals.Proofs.Registry.Provenance

/-!
# The registry as an ordered map

A registry keeps its names in a list and replaces in place. What the list should say follows from
the history alone, one name at a time: `standing` tells with which options and which probe a name
was registered last, and how long ago it came in, which is the registration that found it absent.
The names of a registry are those that have a standing, ordered by the time at which they came in.

Replacing in place looks for the first entry of a name, removing takes away all of them. That both
concern one entry is the part of the invariant that says no name stands twice.
-/

namespace Vitals

namespace Registry

def Action.isDestroy : Action → Bool
  | .destroy => true
  | _ => false

/-- How a name is registered. -/
structure Standing where
  /-- The number of actions before the registration with which the name came in. -/
  since : Nat
  options : Options
  probe : Probe

/-- The standing that a name has after a history, the last action first. A registration counts if
no rule speaks against its options and nothing was destroyed before. -/
def standing (name : String) : List Action → Option Standing
  | [] => none
  | .register options probe :: earlier =>
      if options.name = name ∧ options.fault? = none ∧ earlier.any Action.isDestroy = false then
        let since := ((standing name earlier).map (·.since)).getD earlier.length
        some ⟨since, options, probe⟩
      else standing name earlier
  | .unregister other :: earlier => if other = name then none else standing name earlier
  | .destroy :: _ => none
  | _ :: earlier => standing name earlier

theorem any_isDestroy {history : List Action} :
    history.any Action.isDestroy = true ↔ .destroy ∈ history := by
  rw [List.any_eq_true]
  constructor
  · rintro ⟨action, action_mem, isDestroy⟩
    cases action with
    | destroy => exact action_mem
    | _ => cases isDestroy
  · intro destroy_mem
    exact ⟨.destroy, destroy_mem, rfl⟩

/-- Whoever came in came in during the history. -/
theorem since_lt {name : String} {history : List Action} {now : Standing}
    (stands : standing name history = some now) : now.since < history.length := by
  induction history generalizing now with
  | nil => cases stands
  | cons action earlier ih =>
      have passed (before : standing name earlier = some now) :
          now.since < (action :: earlier).length := Nat.lt_succ_of_lt (ih before)
      cases action with
      | register options probe =>
          simp only [standing] at stands
          split at stands
          · cases before : standing name earlier with
            | none =>
                rw [before] at stands
                cases stands
                exact Nat.lt_succ_self _
            | some old =>
                have since := ih before
                rw [before] at stands
                cases stands
                exact Nat.lt_succ_of_lt since
          · exact passed stands
      | unregister other =>
          simp only [standing] at stands
          split at stands
          · cases stands
          · exact passed stands
      | destroy => cases stands
      | _ => exact passed stands

section Standing

variable {history : List Action} {name other : String} {options : Options} {probe : Probe}

theorem standing_register_self (faultless : options.fault? = none)
    (alive : history.any Action.isDestroy = false) :
    standing options.name (.register options probe :: history) =
      some ⟨((standing options.name history).map (·.since)).getD history.length, options,
        probe⟩ := by
  simp [standing, faultless, alive]

theorem standing_register_of_ne (unlike : options.name ≠ name) :
    standing name (.register options probe :: history) = standing name history := by
  simp [standing, unlike]

/-- To register a name again does not change when it came in. -/
theorem since_register {before : Standing} (stands : standing options.name history = some before)
    {now : Standing} (isNow : standing name (.register options probe :: history) = some now) :
    ∃ old, standing name history = some old ∧ old.since = now.since := by
  by_cases same : options.name = name
  · subst same
    simp only [standing] at isNow
    split at isNow
    · rw [stands] at isNow
      cases isNow
      exact ⟨before, stands, rfl⟩
    · exact ⟨now, isNow, rfl⟩
  · rw [standing_register_of_ne same] at isNow
    exact ⟨now, isNow, rfl⟩

theorem standing_unregister_of_ne (unlike : other ≠ name) :
    standing name (.unregister other :: history) = standing name history := by
  simp [standing, unlike]

end Standing

variable {registry : Registry} {history : List Action}

/-- A registry lists what stands after a history. -/
structure Lists (registry : Registry) (history : List Action) : Prop where
  nodup : registry.names.Nodup
  destroyed : registry.destroyed = history.any Action.isDestroy
  found : ∀ name, (registry.find? name).map (fun found => (found.options, found.probe)) =
    (standing name history).map fun now => (now.options, now.probe)
  ordered : registry.names.Pairwise fun first second =>
    ∀ early ∈ standing first history, ∀ late ∈ standing second history, early.since < late.since

theorem lists_create (version : String) (created : Nat) : (create version created).Lists [] where
  nodup := List.nodup_nil
  destroyed := rfl
  found := fun _ => rfl
  ordered := List.Pairwise.nil

theorem mem_names_iff_find? {name : String} :
    name ∈ registry.names ↔ (registry.find? name).isSome = true := by
  rw [names, find?, List.find?_isSome, List.mem_map]
  simp only [beq_iff_eq]

namespace Lists

variable {action : Action}

theorem mem_names_iff (lists : registry.Lists history) (name : String) :
    name ∈ registry.names ↔ (standing name history).isSome = true := by
  have sameSize := congrArg Option.isSome (lists.found name)
  rw [Option.isSome_map, Option.isSome_map] at sameSize
  rw [mem_names_iff_find?, sameSize]

theorem found_of_standing (lists : registry.Lists history) {name : String} {now : Standing}
    (stands : standing name history = some now) :
    ∃ found, registry.find? name = some found ∧ found.options = now.options ∧
      found.probe = now.probe := by
  have same := lists.found name
  rw [stands] at same
  rcases Option.map_eq_some_iff.mp same with ⟨found, isFound, sameParts⟩
  exact ⟨found, isFound, congrArg Prod.fst sameParts, congrArg Prod.snd sameParts⟩

/-- An action that changes neither the list nor any standing. -/
theorem of_unchanged (lists : registry.Lists history) {next : Registry}
    (registrations : next.registrations = registry.registrations)
    (destroyed : next.destroyed = registry.destroyed)
    (alive : action.isDestroy = false)
    (stands : ∀ name, standing name (action :: history) = standing name history) :
    next.Lists (action :: history) where
  nodup := by
    rw [names, registrations]
    exact lists.nodup
  destroyed := by rw [destroyed, lists.destroyed, List.any_cons, alive, Bool.false_or]
  found := by
    intro name
    rw [find?, registrations, stands]
    exact lists.found name
  ordered := by
    rw [names, registrations]
    simp only [stands]
    exact lists.ordered

/-- A name that is there keeps its place when it is registered again. -/
theorem ordered_register_of_mem (lists : registry.Lists history) {options : Options}
    (known : options.name ∈ registry.names) (probe : Probe) :
    registry.names.Pairwise fun first second =>
      ∀ early ∈ standing first (.register options probe :: history),
        ∀ late ∈ standing second (.register options probe :: history),
          early.since < late.since := by
  rcases Option.isSome_iff_exists.mp ((lists.mem_names_iff _).mp known) with ⟨before, stands⟩
  apply lists.ordered.imp
  intro first second inOrder early early_mem late late_mem
  rcases since_register stands early_mem with ⟨first_old, first_stands, first_since⟩
  rcases since_register stands late_mem with ⟨second_old, second_stands, second_since⟩
  rw [← first_since, ← second_since]
  exact inOrder first_old first_stands second_old second_stands

/-- A name that comes in comes behind all others. -/
theorem ordered_register_of_not_mem (lists : registry.Lists history) {options : Options}
    (unknown : options.name ∉ registry.names) (faultless : options.fault? = none)
    (alive : history.any Action.isDestroy = false) (probe : Probe) :
    (registry.names ++ [options.name]).Pairwise fun first second =>
      ∀ early ∈ standing first (.register options probe :: history),
        ∀ late ∈ standing second (.register options probe :: history),
          early.since < late.since := by
  have unlike {name : String} (name_mem : name ∈ registry.names) : options.name ≠ name := by
    rintro rfl
    exact unknown name_mem
  rw [List.pairwise_append]
  refine ⟨?_, List.pairwise_singleton _ _, ?_⟩
  · apply List.Pairwise.imp_of_mem _ lists.ordered
    intro first second first_mem second_mem inOrder
    rw [standing_register_of_ne (unlike first_mem), standing_register_of_ne (unlike second_mem)]
    exact inOrder
  · intro first first_mem second second_mem early early_mem late late_mem
    rw [List.mem_singleton.mp second_mem, standing_register_self faultless alive] at late_mem
    rw [standing_register_of_ne (unlike first_mem)] at early_mem
    have absent : standing options.name history = none := by
      rw [← Option.not_isSome_iff_eq_none, ← lists.mem_names_iff]
      exact unknown
    rw [absent] at late_mem
    cases late_mem
    exact since_lt early_mem

theorem enter (lists : registry.Lists history) {options : Options}
    (accepted : registry.accepts options = true) (probe : Probe) :
    (registry.enter options probe).Lists (.register options probe :: history) := by
  have faultless : options.fault? = none := by
    simp only [accepts, Bool.and_eq_true, Option.isNone_iff_eq_none] at accepted
    exact accepted.1
  have alive : history.any Action.isDestroy = false := by
    simp only [accepts, Bool.and_eq_true, Bool.not_eq_true'] at accepted
    rw [← lists.destroyed]
    exact accepted.2
  refine ⟨nodup_names_place lists.nodup, lists.destroyed, ?_, ?_⟩
  · intro name
    rw [find?_enter]
    split
    · next same =>
        subst same
        rw [standing_register_self faultless alive]
        rfl
    · next unlike =>
        rw [standing_register_of_ne unlike]
        exact lists.found name
  · rw [names_enter]
    split
    · next known => exact lists.ordered_register_of_mem known probe
    · next unknown => exact lists.ordered_register_of_not_mem unknown faultless alive probe

theorem unregister (lists : registry.Lists history) (name : String) :
    (registry.unregister name).Lists (.unregister name :: history) := by
  refine ⟨?_, lists.destroyed, ?_, ?_⟩
  · rw [names_unregister]
    exact lists.nodup.filter _
  · intro other
    rw [find?_unregister]
    by_cases same : other = name
    · subst same
      simp [standing]
    · rw [if_neg same, standing_unregister_of_ne (Ne.symm same)]
      exact lists.found other
  · have kept {other : String} (other_mem : other ∈ registry.names.filter (· != name)) :
        name ≠ other := by
      have unlike := (List.mem_filter.mp other_mem).2
      exact Ne.symm (by simpa using unlike)
    rw [names_unregister]
    apply List.Pairwise.imp_of_mem _ (lists.ordered.sublist List.filter_sublist)
    intro first second first_mem second_mem inOrder
    rw [standing_unregister_of_ne (kept first_mem), standing_unregister_of_ne (kept second_mem)]
    exact inOrder

theorem destroy (coherent : registry.Coherent) : registry.destroy.Lists (.destroy :: history) := by
  have registrations : registry.destroy.registrations = [] := by
    rw [Registry.destroy]
    split
    · next destroyed => exact coherent.empty_of_destroyed destroyed
    · rfl
  have destroyed : registry.destroy.destroyed = true := by
    rw [Registry.destroy]
    split
    · assumption
    · rfl
  refine ⟨?_, ?_, ?_, ?_⟩
  · rw [names, registrations]
    exact List.nodup_nil
  · rw [destroyed]
    rfl
  · intro name
    rw [find?, registrations]
    rfl
  · rw [names, registrations]
    exact List.Pairwise.nil

theorem step (lists : registry.Lists history) (coherent : registry.Coherent) (action : Action) :
    (registry.step action).Lists (action :: history) := by
  cases action with
  | register options probe =>
      rw [step_register]
      cases accepted : registry.accepts options with
      | true => exact lists.enter accepted probe
      | false =>
          refine lists.of_unchanged rfl rfl rfl ?_
          intro name
          have refused : ¬(options.fault? = none ∧ history.any Action.isDestroy = false) := by
            rintro ⟨faultless, alive⟩
            rw [accepts, faultless, lists.destroyed, alive] at accepted
            cases accepted
          have unmet : ¬(options.name = name ∧ options.fault? = none ∧
              history.any Action.isDestroy = false) := fun met => refused met.2
          rw [standing, if_neg unmet]
  | unregister name => exact lists.unregister name
  | destroy => exact destroy coherent
  | ask question => exact lists.of_unchanged rfl rfl rfl fun _ => rfl
  | abandon ticket => exact lists.of_unchanged rfl rfl rfl fun _ => rfl
  | advance milliseconds => exact lists.of_unchanged rfl rfl rfl fun _ => rfl
  | pass milliseconds turns => exact lists.of_unchanged rfl rfl rfl fun _ => rfl

end Lists

theorem lists_run (version : String) (created : Nat) (actions : List Action) :
    ((create version created).run actions).Lists actions.reverse := by
  induction actions using List.reverseRecOn with
  | nil => exact lists_create version created
  | append_singleton earlier last ih =>
      rw [run_concat, List.reverse_append]
      exact ih.step (coherent_run version created earlier) last

theorem unregisters_eq_true {name : String} :
    registry.unregisters name = true ↔ name ∈ registry.names := by
  have smaller : registry.unregisters name = true ↔
      (registry.registrations.filter (·.options.name != name)).length ≠
        registry.registrations.length := bne_iff_ne
  rw [smaller, Ne, List.length_filter_eq_length_iff, names, List.mem_map]
  simp only [bne_iff_ne, not_forall, not_not, exists_prop]

/-- A check of a name executes the probe that is registered under it, and no other. -/
theorem ask_one_of_find? {name : String} {found : Registration} {execution : Execution}
    (isFound : registry.find? name = some found)
    (executed : registry.executionOf found = execution) :
    (registry.ask (.one name)).scheduler.ledger.runs = registry.scheduler.ledger.runs ++
        [⟨found.serial, .inquiry registry.asked, none, execution, none⟩] ∧
      (registry.inquiry (.one name)).resultFor name = execution.result := by
  subst executed
  have concerned_eq : registry.concerned (.one name) = [found] := by
    rw [concerned, isFound, Option.toList_some]
  constructor
  · simp only [ask, Ledger.runs_record, Inquiry.runs, inquiry, concerned_eq, List.map_cons,
      List.map_nil]
  · simp only [Inquiry.resultFor, Inquiry.results, Inquiry.executions, inquiry, concerned_eq,
      List.map_cons, List.map_nil, List.headD_cons]

theorem ask_one_of_absent {name : String} (absent : registry.find? name = none) :
    (registry.ask (.one name)).scheduler = registry.scheduler ∧
      (registry.inquiry (.one name)).resultFor name =
        { Execution.notFound name with timestamp := .ofClock registry.now } := by
  have concerned_eq : registry.concerned (.one name) = [] := by
    rw [concerned, absent, Option.toList_none]
  constructor
  · simp only [ask, Ledger.record, Inquiry.runs, inquiry, concerned_eq, List.map_nil,
      List.append_nil]
  · simp only [Inquiry.resultFor, Inquiry.results, Inquiry.executions, inquiry, concerned_eq,
      List.map_nil, List.headD_nil]

theorem register_ok_iff {options : Options} {probe : Probe} :
    (∃ next, registry.register options probe = .ok next) ↔
      options.fault? = none ∧ registry.destroyed = false := by
  have accepts_iff : registry.accepts options = true ↔
      options.fault? = none ∧ registry.destroyed = false := by
    rw [accepts, Bool.and_eq_true, Option.isNone_iff_eq_none, Bool.not_eq_true']
  rw [← accepts_iff]
  rcases registry.register_eq options probe with
    ⟨rejection, refused, result⟩ | ⟨accepted, result⟩
  · simp [result, refused]
  · simp [result, accepted]

/-- No rule allows a timeout of zero, so a check of what is registered is a call. -/
theorem timeout_pos_of_find? (version : String) (created : Nat) (actions : List Action)
    {name : String} {found : Registration}
    (isFound : ((create version created).run actions).find? name = some found) :
    0 < found.options.timeout := by
  have registered := List.mem_of_find?_eq_some isFound
  have faultless := (accepted_of_run version created actions found registered).1
  exact Nat.pos_of_ne_zero (Options.fault?_eq_none_iff.mp faultless).2.1

theorem names_run_of_destroyed (coherent : registry.Coherent)
    (destroyed : registry.destroyed = true) (later : List Action) :
    (registry.run later).names = [] := by
  have still : (registry.run later).Coherent :=
    run_induction Coherent coherent (fun _ action still => still.step action) later
  rw [names, still.empty_of_destroyed ((destroyed_run registry later).mpr (Or.inl destroyed))]
  rfl

/-- A registry is an ordered map. After every run its names are those that stand, in the order in
which they came in; a registration is accepted unless its options break a rule or the registry is
destroyed; a name can be unregistered exactly if it is there, and is gone then; a check of a name
executes, now and under the options of the last accepted registration, the next call of the probe
that was registered with them, and calls nothing exactly if the name is absent; and what is
destroyed stays empty. -/
theorem ordered_map_of_run (version : String) (created : Nat) (actions : List Action) :
    let registry := (create version created).run actions
    let stands (name : String) := standing name actions.reverse
    registry.names.Nodup ∧
    (∀ name, name ∈ registry.names ↔ (stands name).isSome = true) ∧
    (registry.names.Pairwise fun first second =>
      ∀ early ∈ stands first, ∀ late ∈ stands second, early.since < late.since) ∧
    registry.size = registry.names.length ∧
    (registry.isEmpty = true ↔ registry.names = []) ∧
    (∀ options probe, (∃ next, registry.register options probe = .ok next) ↔
      options.fault? = none ∧ .destroy ∉ actions) ∧
    (∀ name, (registry.unregisters name = true ↔ name ∈ registry.names) ∧
      (registry.unregister name).names = registry.names.filter (· != name)) ∧
    (∀ name, ∀ now ∈ stands name, ∃ found : Registration,
      registry.find? name = some found ∧ found.options = now.options ∧ found.probe = now.probe ∧
      now.options.name = name ∧
      let calls := registry.scheduler.ledger.callsStarted name found.serial
      let execution : Execution := ⟨now.options, now.probe calls, registry.now⟩
      execution.calls = true ∧
      (registry.ask (.one name)).scheduler.ledger.runs = registry.scheduler.ledger.runs ++
        [⟨found.serial, .inquiry registry.asked, none, execution, none⟩] ∧
      (registry.inquiry (.one name)).resultFor name = execution.result) ∧
    (∀ name, name ∉ registry.names →
      (registry.ask (.one name)).scheduler = registry.scheduler ∧
      let result := (registry.inquiry (.one name)).resultFor name
      result.status = .unhealthy ∧ result.name = name ∧
        result.message = some ("probe '" ++ name ++ "' not found") ∧ result.duration = .zero) ∧
    (.destroy ∈ actions → ∀ later, (registry.run later).names = []) := by
  intro registry stands
  have lists : registry.Lists actions.reverse := lists_run version created actions
  have coherent : registry.Coherent := coherent_run version created actions
  have destroyed_iff : registry.destroyed = true ↔ .destroy ∈ actions := by
    rw [lists.destroyed, any_isDestroy, List.mem_reverse]
  refine ⟨lists.nodup, lists.mem_names_iff, lists.ordered, ?_, ?_, ?_, ?_, ?_, ?_, ?_⟩
  · exact (List.length_map _).symm
  · rw [isEmpty, List.isEmpty_iff, names, List.map_eq_nil_iff]
  · intro options probe
    rw [register_ok_iff, ← destroyed_iff, Bool.not_eq_true]
  · intro name
    exact ⟨unregisters_eq_true, names_unregister registry name⟩
  · intro name now isNow
    rcases lists.found_of_standing isNow with ⟨found, isFound, sameOptions, sameProbe⟩
    have named : now.options.name = name := by
      have found_named := List.find?_some isFound
      rw [beq_iff_eq, sameOptions] at found_named
      exact found_named
    have timeout_pos := timeout_pos_of_find? version created actions isFound
    rw [sameOptions] at timeout_pos
    have executed := registry.executionOf_eq found
    rw [sameOptions, sameProbe, named] at executed
    exact ⟨found, isFound, sameOptions, sameProbe, named, decide_eq_true timeout_pos,
      ask_one_of_find? isFound executed⟩
  · intro name unknown
    have absent : registry.find? name = none := by
      rw [← Option.not_isSome_iff_eq_none, ← mem_names_iff_find?]
      exact unknown
    have answered := ask_one_of_absent absent
    refine ⟨answered.1, ?_⟩
    rw [answered.2]
    exact ⟨rfl, rfl, rfl, rfl⟩
  · intro destroyed later
    exact names_run_of_destroyed coherent (destroyed_iff.mpr destroyed) later

example :
    let enters (name : String) : Action := .register ⟨name, 50, false, none⟩ fun _ => .hangs
    let registry := (create "1.0.0" 0).run [enters "db", enters "cache", enters "db"]
    registry.names = ["db", "cache"] ∧
      (registry.run [.unregister "db", .advance 5, enters "db"]).names = ["cache", "db"] := by
  decide +kernel

end Registry

end Vitals
