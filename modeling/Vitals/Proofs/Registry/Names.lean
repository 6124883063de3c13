import Vitals.Proofs.Polling.Splitting
import Vitals.Proofs.Registry.Inquiries
import Vitals.Proofs.Registry.Provenance

/-!
# A registry by names

What a registry says and does about one name. `Mirrors` compares the part of a name in two
registries: who is registered under it, and what the scheduler keeps for it. An action on both
sides keeps the parts equal, and so does an action on one side that is none of the name's business.
Inquiries may have other tickets on the other side, or be unknown there.
-/

namespace Vitals

/-- The question is about a name, if the name is registered. -/
def Question.concerns (name : String) : Question → Bool
  | .one other => other == name
  | .all => true

namespace Registry

section Inquiries

variable {registry : Registry} {name : String}

/-- A registry is known by its names and what is found under each. -/
theorem filterMap_find?_names (nodup : registry.names.Nodup) :
    registry.names.filterMap registry.find? = registry.registrations := by
  rw [names, List.filterMap_map]
  have itself : ∀ registration ∈ registry.registrations,
      (registry.find? ∘ (·.options.name)) registration = some registration :=
    fun registration registration_mem =>
      (find?_eq_some_iff nodup).mpr ⟨registration_mem, rfl⟩
  rw [List.filterMap_congr itself, List.filterMap_some]

/-- The record of an execution on demand, as it starts. -/
def runOf (registry : Registry) (registration : Registration) : Run :=
  ⟨registration.serial, .inquiry registry.asked, none, registry.executionOf registration, none⟩

theorem runs_inquiry (registry : Registry) (question : Question) :
    (registry.inquiry question).runs = (registry.concerned question).map registry.runOf := by
  simp only [Inquiry.runs, inquiry, List.map_map]
  rfl

theorem filter_concerned (nodup : registry.names.Nodup) (question : Question) :
    (registry.concerned question).filter (·.options.name == name) =
      if question.concerns name then (registry.find? name).toList else [] := by
  cases question with
  | all => exact filter_eq_toList_find? nodup name
  | one other =>
      cases found : registry.find? other with
      | none =>
          by_cases same : other = name
          · subst same
            simp [concerned, found]
          · simp [concerned, found, Question.concerns, same]
      | some registration =>
          have named := ((find?_eq_some_iff nodup).mp found).2
          by_cases same : other = name
          · subst same
            simp [concerned, found, Question.concerns, named]
          · simp [concerned, found, Question.concerns, named, same]

/-- Of the executions of an inquiry, one at most is that of a name. -/
theorem filter_runs_inquiry (nodup : registry.names.Nodup) (question : Question) :
    (registry.inquiry question).runs.filter (·.name == name) =
      if question.concerns name then (registry.find? name).toList.map registry.runOf else [] := by
  have sameName : (fun registration => (registry.runOf registration).name == name) =
      fun registration : Registration => registration.options.name == name := rfl
  rw [runs_inquiry, List.filter_map, Function.comp_def, sameName, filter_concerned nodup]
  split <;> rfl

/-- What an action finds on record stays there. What it adds, a timer or an inquiry has started. -/
theorem mem_runs_step {action : Action} {run : Run}
    (run_mem : run ∈ (registry.step action).scheduler.ledger.runs) :
    (∃ old ∈ registry.scheduler.ledger.runs, old.charge = run.charge) ∨ run.owner = .timer ∨
      ∃ question, action = .ask question ∧ run ∈ (registry.inquiry question).runs := by
  rw [scheduler_step] at run_mem
  rcases registry.stepOrders_eq action with idle | ⟨order, single, caused⟩
  · rw [idle] at run_mem
    exact Or.inl ⟨run, run_mem, rfl⟩
  · rw [single] at run_mem
    rcases Scheduler.mem_runs_step run_mem with old | ⟨owned, -⟩ | ⟨inquiry, asked, answer⟩
    · exact Or.inl old
    · exact Or.inr (Or.inl owned)
    · subst asked
      cases caused with
      | ask question => exact Or.inr (Or.inr ⟨question, rfl, answer⟩)

/-- The entry of a name in a check of everything. -/
theorem check?_report (registry : Registry) (system : Snapshot) (name : String) :
    (registry.report system (registry.inquiry .all)).check? name =
      (registry.find? name).map fun registration =>
        (registry.executionOf registration).result := by
  have checks : (registry.report system (registry.inquiry .all)).checks =
      registry.registrations.map fun registration =>
        (registry.executionOf registration).result := results_inquiry
  rw [Report.check?, checks, List.find?_map, find?]
  congr 2
  funext registration
  simp [executionOf]

theorem resultFor_inquiry (registry : Registry) (name : String) :
    (registry.inquiry (.one name)).resultFor name =
      match registry.find? name with
      | some registration => (registry.executionOf registration).result
      | none => { Execution.notFound name with timestamp := .ofClock registry.now } := by
  rw [Inquiry.resultFor, Inquiry.results, Inquiry.executions, inquiry, concerned]
  cases registry.find? name <;> rfl

end Inquiries

/-- The part of a name in one registry is its part in another, when those who wait are called by
other names. -/
structure Mirrors (rename : Owner → Option Owner) (name : String) (left right : Registry) :
    Prop where
  found : left.find? name = right.find? name
  destroyed : left.destroyed = right.destroyed
  scheduler : Scheduler.Mirrors rename name left.scheduler right.scheduler

namespace Mirrors

variable {rename : Owner → Option Owner} {name : String} {left right : Registry}

theorem create (version : String) (created : Nat) (name : String)
    (timer : ∀ owner, rename owner = some .timer ↔ owner = .timer) :
    Mirrors rename name (.create version created) (.create version created) :=
  ⟨rfl, rfl, timer, rfl, rfl, rfl, rfl, rfl⟩

theorem refl (registry : Registry) (name : String) : Mirrors some name registry registry :=
  ⟨rfl, rfl, .refl _ _⟩

theorem trans {next : Registry} (mirrors : Mirrors rename name left right)
    (further : Mirrors some name right next) : Mirrors rename name left next :=
  ⟨mirrors.found.trans further.found, mirrors.destroyed.trans further.destroyed,
    mirrors.scheduler.trans further.scheduler⟩

theorem accepts (mirrors : Mirrors rename name left right) (options : Options) :
    left.accepts options = right.accepts options := by
  rw [Registry.accepts, Registry.accepts, mirrors.destroyed]

theorem executionOf (mirrors : Mirrors rename name left right)
    (known : ∀ run ∈ left.scheduler.ledger.recordOf name, (rename run.owner).isSome = true)
    {registration : Registration} (named : registration.options.name = name) :
    left.executionOf registration = right.executionOf registration := by
  rw [Registry.executionOf, Registry.executionOf, named, mirrors.scheduler.callsStarted known,
    now, now, mirrors.scheduler.now]

theorem register (mirrors : Mirrors rename name left right) (options : Options) (probe : Probe) :
    Mirrors rename name (left.step (.register options probe))
      (right.step (.register options probe)) := by
  rw [step_register, step_register, mirrors.accepts]
  split
  · refine ⟨?_, mirrors.destroyed, mirrors.scheduler.launch options probe⟩
    rw [find?_enter, find?_enter]
    split
    · next same =>
        subst same
        rw [Ledger.registration, Ledger.registration, mirrors.scheduler.issued]
    · exact mirrors.found
  · exact mirrors

theorem register_left (mirrors : Mirrors rename name left right) {options : Options}
    (unlike : options.name ≠ name) (probe : Probe) :
    Mirrors rename name (left.step (.register options probe)) right := by
  rw [step_register]
  split
  · refine ⟨?_, mirrors.destroyed, mirrors.scheduler.launch_left unlike probe⟩
    rw [find?_enter, if_neg unlike]
    exact mirrors.found
  · exact mirrors

theorem unregister (mirrors : Mirrors rename name left right) (other : String) :
    Mirrors rename name (left.unregister other) (right.unregister other) := by
  refine ⟨?_, mirrors.destroyed, mirrors.scheduler.stop other⟩
  rw [find?_unregister, find?_unregister, mirrors.found]

theorem unregister_left (mirrors : Mirrors rename name left right) {other : String}
    (unlike : other ≠ name) : Mirrors rename name (left.unregister other) right := by
  refine ⟨?_, mirrors.destroyed, mirrors.scheduler.stop_left unlike⟩
  rw [find?_unregister, if_neg (Ne.symm unlike)]
  exact mirrors.found

theorem destroy (mirrors : Mirrors rename name left right) :
    Mirrors rename name left.destroy right.destroy := by
  rw [Registry.destroy, Registry.destroy, mirrors.destroyed]
  split
  · exact mirrors
  · exact ⟨rfl, rfl, mirrors.scheduler.stopAll⟩

/-- The same question on both sides, under a ticket of each side. -/
theorem ask (mirrors : Mirrors rename name left right) (nodup : left.names.Nodup)
    (nodup' : right.names.Nodup)
    (known : ∀ run ∈ left.scheduler.ledger.recordOf name, (rename run.owner).isSome = true)
    (ticket : rename (.inquiry left.asked) = some (.inquiry right.asked)) (question : Question) :
    Mirrors rename name (left.ask question) (right.ask question) := by
  refine ⟨mirrors.found, mirrors.destroyed, mirrors.scheduler.recorded ?_⟩
  rw [filter_runs_inquiry nodup, filter_runs_inquiry nodup', ← mirrors.found]
  split
  · cases found : left.find? name with
    | none => rfl
    | some registration =>
        have named := ((find?_eq_some_iff nodup).mp found).2
        simp [runOf, Run.rename?, Run.ownedBy, ticket, mirrors.executionOf known named]
  · rfl

/-- A question that is asked on one side only is not about the name, or those who wait for the
answer have no name on the other side. -/
theorem ask_left (mirrors : Mirrors rename name left right) (nodup : left.names.Nodup)
    {question : Question}
    (foreign : question.concerns name = false ∨ rename (.inquiry left.asked) = none) :
    Mirrors rename name (left.ask question) right := by
  have nothing : ((left.inquiry question).runs.filter (·.name == name)).filterMap
      (·.rename? rename) = [] := by
    rw [filter_runs_inquiry nodup]
    rcases foreign with unconcerned | nameless
    · simp [unconcerned]
    · split
      · simp [runOf, Run.rename?, nameless]
      · rfl
  exact ⟨mirrors.found, mirrors.destroyed, mirrors.scheduler.recorded_left nothing⟩

theorem abandon (mirrors : Mirrors rename name left right) {ticket ticket' : Nat}
    (same : ∀ run ∈ left.scheduler.ledger.recordOf name, ∀ owner, rename run.owner = some owner →
      (run.owner = .inquiry ticket ↔ owner = .inquiry ticket')) :
    Mirrors rename name (left.abandon ticket) (right.abandon ticket') := by
  refine ⟨mirrors.found, mirrors.destroyed, mirrors.scheduler.cancelled ?_⟩
  intro run run_mem renamed isRenamed
  rcases Option.map_eq_some_iff.mp isRenamed with ⟨owner, isOwner, rfl⟩
  rw [Bool.eq_iff_iff, beq_iff_eq, beq_iff_eq]
  exact same run run_mem owner isOwner

theorem abandon_left (mirrors : Mirrors rename name left right) {ticket : Nat}
    (nameless : rename (.inquiry ticket) = none) :
    Mirrors rename name (left.abandon ticket) right := by
  refine ⟨mirrors.found, mirrors.destroyed, mirrors.scheduler.cancelled_left ?_⟩
  intro run _ renamed isRenamed
  rcases Option.map_eq_some_iff.mp isRenamed with ⟨owner, isOwner, rfl⟩
  rw [beq_eq_false_iff_ne]
  intro owned
  rw [owned, nameless] at isOwner
  cases isOwner

theorem advance (mirrors : Mirrors rename name left right)
    (inStep : Scheduler.InStep name left.scheduler right.scheduler) (milliseconds : Nat) :
    Mirrors rename name (left.advance milliseconds) (right.advance milliseconds) :=
  ⟨mirrors.found, mirrors.destroyed, mirrors.scheduler.advance inStep milliseconds⟩

theorem pass (mirrors : Mirrors rename name left right)
    (inStep : Scheduler.InStep name left.scheduler right.scheduler) (milliseconds : Nat)
    {turns turns' : String → Nat} (same : turns name = turns' name) :
    Mirrors rename name (left.pass milliseconds turns) (right.pass milliseconds turns') :=
  ⟨mirrors.found, mirrors.destroyed, mirrors.scheduler.pass inStep milliseconds same⟩

end Mirrors

/-- All parts of one registry are those of another, and both list the names alike. -/
structure Matches (rename : Owner → Option Owner) (left right : Registry) : Prop where
  names : left.names = right.names
  destroyed : left.destroyed = right.destroyed
  parts : ∀ name, Mirrors rename name left right

namespace Matches

variable {rename : Owner → Option Owner} {left right : Registry}

theorem trans {next : Registry} (same : Matches rename left right)
    (further : Matches some right next) : Matches rename left next :=
  ⟨same.names.trans further.names, same.destroyed.trans further.destroyed,
    fun name => (same.parts name).trans (further.parts name)⟩

theorem registrations (same : Matches rename left right) (nodup : left.names.Nodup) :
    left.registrations = right.registrations := by
  have nodup' : right.names.Nodup := by
    rw [← same.names]
    exact nodup
  rw [← filterMap_find?_names nodup, ← filterMap_find?_names nodup', same.names]
  apply List.filterMap_congr
  intro name _
  exact (same.parts name).found

theorem names_step (same : Matches rename left right) (action : Action) :
    (left.step action).names = (right.step action).names := by
  cases action with
  | register options probe =>
      rw [step_register, step_register, accepts, accepts, same.destroyed]
      split
      · rw [names_enter, names_enter, same.names]
      · exact same.names
  | unregister name =>
      rw [step, step, names_unregister, names_unregister, same.names]
  | destroy =>
      rw [step, step, destroy, destroy, same.destroyed]
      split
      · exact same.names
      · rfl
  | _ => exact same.names

theorem destroyed_step (same : Matches rename left right) (action : Action) :
    (left.step action).destroyed = (right.step action).destroyed := by
  rw [Bool.eq_iff_iff, Registry.destroyed_step, Registry.destroyed_step, same.destroyed]

end Matches

end Registry

end Vitals
