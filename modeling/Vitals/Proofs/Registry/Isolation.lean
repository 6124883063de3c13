import Vitals.Proofs.Registry.Timeline

/-!
# One name among others

What happens to one name is no business of the others. `about` leaves of a run what concerns a
name: its registrations and removals, the questions about it and about everything, the destruction
and the time. The timers of other names may fall behind as they like. Tickets count all questions,
so a question is given up under the number that it has among those about the name.

A run and what it leaves of itself agree in everything that belongs to the name. So two runs that
leave the same, at the same virtual times, agree in that too.
-/

namespace Vitals

/-- The number of a ticket when only those tickets are counted that are marked. -/
def renumber (marked : List Bool) (ticket : Nat) : Option Nat :=
  if marked[ticket]? = some true then some ((marked.take ticket).count true) else none

section Renumber

variable {marked : List Bool} {ticket other number : Nat}

theorem lt_of_renumber (renumbered : renumber marked ticket = some number) :
    ticket < marked.length := by
  unfold renumber at renumbered
  split at renumbered
  · next isMarked => exact (List.getElem?_eq_some_iff.mp isMarked).1
  · cases renumbered

theorem renumber_append (lt : ticket < marked.length) (more : List Bool) :
    renumber (marked ++ more) ticket = renumber marked ticket := by
  rw [renumber, renumber, List.getElem?_append_left lt,
    List.take_append_of_le_length (Nat.le_of_lt lt)]

theorem renumber_length (mark : Bool) :
    renumber (marked ++ [mark]) marked.length =
      if mark then some (marked.count true) else none := by
  cases mark <;> simp [renumber]

theorem count_take_lt (isMarked : marked[ticket]? = some true) (lt : ticket < other) :
    (marked.take ticket).count true < (marked.take other).count true := by
  have next : (marked.take (ticket + 1)).count true = (marked.take ticket).count true + 1 := by
    rw [List.take_add_one, isMarked, List.count_append]
    rfl
  have more : (marked.take (ticket + 1)).count true ≤ (marked.take other).count true :=
    (List.take_sublist_take_left lt).count_le true
  omega

/-- No two tickets get the same number. -/
theorem renumber_inj (renumbered : renumber marked ticket = some number)
    (renumbered' : renumber marked other = some number) : ticket = other := by
  unfold renumber at renumbered renumbered'
  split at renumbered
  · next isMarked =>
      split at renumbered'
      · next isMarked' =>
          have sameCount := Option.some.inj (renumbered.trans renumbered'.symm)
          rcases Nat.lt_trichotomy ticket other with lt | same | gt
          · have less := count_take_lt isMarked lt
            omega
          · exact same
          · have less := count_take_lt isMarked' gt
            omega
      · cases renumbered'
  · cases renumbered

end Renumber

/-- Timers keep their names, inquiries get the number of their ticket among those that are
marked. -/
def Owner.renumbered (marked : List Bool) : Owner → Option Owner
  | .timer => some .timer
  | .inquiry ticket => (renumber marked ticket).map .inquiry

theorem Owner.renumbered_eq_timer (marked : List Bool) (owner : Owner) :
    owner.renumbered marked = some .timer ↔ owner = .timer := by
  cases owner <;> simp [renumbered]

/-- The record without the ticket of the inquiry. -/
def Run.unticketed (run : Run) : Run :=
  match run.owner with
  | .timer => run
  | .inquiry _ => run.ownedBy (.inquiry 0)

theorem Run.unticketed_rename? {marked : List Bool} {run : Run} {owner : Owner}
    (renumbered : run.owner.renumbered marked = some owner) :
    (run.rename? (Owner.renumbered marked)).map unticketed = some run.unticketed := by
  rcases run with ⟨serial, old, due, execution, cancelledAt⟩
  simp only [rename?, renumbered, Option.map_some]
  cases old with
  | timer =>
      cases renumbered
      rfl
  | inquiry ticket =>
      rcases Option.map_eq_some_iff.mp renumbered with ⟨number, _, rfl⟩
      rfl

namespace Registry

/-- For each ticket that an action takes, whether it is for a question about a name. -/
def Action.marks (name : String) : Action → List Bool
  | .ask question => [question.concerns name]
  | _ => []

/-- The action as far as it is about a name. -/
def Action.about (name : String) (marked : List Bool) : Action → Option Action
  | .register options probe => if options.name = name then some (.register options probe) else none
  | .unregister other => if other = name then some (.unregister other) else none
  | .destroy => some .destroy
  | .ask question => if question.concerns name then some (.ask question) else none
  | .abandon ticket => (renumber marked ticket).map .abandon
  | .advance milliseconds => some (.advance milliseconds)
  | .pass milliseconds turns =>
      some (.pass milliseconds fun other => if other = name then turns name else 0)

/-- What of a run is about a name, if the tickets so far are marked. -/
def about (name : String) : List Bool → List Action → List Action
  | _, [] => []
  | marked, action :: rest =>
      (action.about name marked).toList ++ about name (marked ++ action.marks name) rest

/-- What of a run is the business of a name, and at which virtual times. -/
def business (name : String) (actions : List Action) : List Action :=
  timeline (about name [] actions)

/-- Two registries in which everything about a name is the same: its registration, its timer and
its cached result, when its calls have started and ended or were cancelled, and the results that a
check of the name or of everything has for it. -/
structure SameFor (name : String) (left right : Registry) : Prop where
  found : left.find? name = right.find? name
  polling : left.scheduler.isPolling name = right.scheduler.isPolling name
  cached : left.scheduler.cached name = right.scheduler.cached name
  calls : (left.scheduler.ledger.recordOf name).map Run.unticketed =
    (right.scheduler.ledger.recordOf name).map Run.unticketed
  check : (left.inquiry (.one name)).resultFor name = (right.inquiry (.one name)).resultFor name
  entry : ∀ system, (left.report system (left.inquiry .all)).check? name =
    (right.report system (right.inquiry .all)).check? name

namespace SameFor

variable {name : String} {left right : Registry}

theorem symm (same : SameFor name left right) : SameFor name right left where
  found := same.found.symm
  polling := same.polling.symm
  cached := same.cached.symm
  calls := same.calls.symm
  check := same.check.symm
  entry := fun system => (same.entry system).symm

theorem trans {next : Registry} (same : SameFor name left right)
    (further : SameFor name right next) : SameFor name left next where
  found := same.found.trans further.found
  polling := same.polling.trans further.polling
  cached := same.cached.trans further.cached
  calls := same.calls.trans further.calls
  check := same.check.trans further.check
  entry := fun system => (same.entry system).trans (further.entry system)

end SameFor

theorem Mirrors.sameFor {name : String} {marked : List Bool} {left right : Registry}
    (part : Mirrors (Owner.renumbered marked) name left right)
    (known : ∀ run ∈ left.scheduler.ledger.recordOf name,
      (run.owner.renumbered marked).isSome = true) : SameFor name left right := by
  have executions : ∀ registration, right.find? name = some registration →
      left.executionOf registration = right.executionOf registration := by
    intro registration isFound
    have named : registration.options.name = name := by simpa using List.find?_some isFound
    exact part.executionOf known named
  refine ⟨part.found, part.scheduler.isPolling, part.scheduler.cached, ?_, ?_, ?_⟩
  · have unticketed : ∀ run ∈ left.scheduler.ledger.recordOf name,
        (run.rename? (Owner.renumbered marked)).map Run.unticketed = some run.unticketed := by
      intro run run_mem
      rcases Option.isSome_iff_exists.mp (known run run_mem) with ⟨owner, renumbered⟩
      exact Run.unticketed_rename? renumbered
    rw [← part.scheduler.record, List.map_filterMap, List.filterMap_congr unticketed]
    exact (congrFun List.filterMap_eq_map' _).symm
  · rw [resultFor_inquiry, resultFor_inquiry, part.found]
    cases isFound : right.find? name with
    | none => rw [now, now, part.scheduler.now]
    | some registration => exact congrArg Execution.result (executions registration isFound)
  · intro system
    rw [check?_report, check?_report, part.found]
    cases isFound : right.find? name with
    | none => rfl
    | some registration => rw [Option.map_some, Option.map_some, executions registration isFound]

/-- A registry goes along with one that knows only what is about a name. -/
structure Follows (name : String) (marked : List Bool) (left right : Registry) : Prop where
  asked : left.asked = marked.length
  counted : right.asked = marked.count true
  known : ∀ run ∈ left.scheduler.ledger.recordOf name,
    (run.owner.renumbered marked).isSome = true
  part : Mirrors (Owner.renumbered marked) name left right

namespace Follows

variable {name : String} {marked : List Bool} {left right : Registry}

theorem renumbered_append (follows : Follows name marked left right) (more : List Bool) :
    ∀ run ∈ left.scheduler.ledger.recordOf name,
      run.owner.renumbered (marked ++ more) = run.owner.renumbered marked := by
  intro run run_mem
  have known := follows.known run run_mem
  cases owner : run.owner with
  | timer => rfl
  | inquiry ticket =>
      rw [owner, Owner.renumbered, Option.isSome_map] at known
      rcases Option.isSome_iff_exists.mp known with ⟨number, renumbered⟩
      rw [Owner.renumbered, Owner.renumbered, renumber_append (lt_of_renumber renumbered)]

theorem renamed (follows : Follows name marked left right) (more : List Bool) :
    Mirrors (Owner.renumbered (marked ++ more)) name left right :=
  ⟨follows.part.found, follows.part.destroyed,
    follows.part.scheduler.renamed (Owner.renumbered_eq_timer _) (follows.renumbered_append more)⟩

theorem create (version : String) (created : Nat) (name : String) :
    Follows name [] (create version created) (.create version created) where
  asked := rfl
  counted := rfl
  known := fun _ run_mem => absurd run_mem List.not_mem_nil
  part := .create version created name (Owner.renumbered_eq_timer [])

/-- Whoever waits for an execution of the name waits with a marked ticket. -/
theorem known_step (follows : Follows name marked left right) (coherent : left.Coherent)
    (action : Action) :
    ∀ run ∈ (left.step action).scheduler.ledger.recordOf name,
      (run.owner.renumbered (marked ++ action.marks name)).isSome = true := by
  intro run run_mem
  rcases List.mem_filter.mp run_mem with ⟨recorded, named⟩
  rcases mem_runs_step recorded with ⟨old, old_mem, sameCharge⟩ | owned | ⟨question, rfl, answer⟩
  · have sameOwner : old.owner = run.owner := congrArg Charge.owner sameCharge
    have sameName : old.name = run.name := congrArg Charge.name sameCharge
    have old_recorded : old ∈ left.scheduler.ledger.recordOf name :=
      List.mem_filter.mpr ⟨old_mem, by rw [sameName, named]⟩
    rw [← sameOwner, follows.renumbered_append _ old old_recorded]
    exact follows.known old old_recorded
  · rw [owned]
    rfl
  · have answers : run ∈ (left.inquiry question).runs.filter (·.name == name) :=
      List.mem_filter.mpr ⟨answer, named⟩
    rw [filter_runs_inquiry coherent.names_nodup] at answers
    split at answers
    · next concerned =>
        rcases List.mem_map.mp answers with ⟨registration, _, rfl⟩
        have ticket : (left.runOf registration).owner = .inquiry marked.length := by
          rw [← follows.asked]
          rfl
        rw [ticket, Action.marks, concerned, Owner.renumbered, renumber_length]
        rfl
    · exact absurd answers List.not_mem_nil

theorem known_append (follows : Follows name marked left right) (more : List Bool) :
    ∀ run ∈ left.scheduler.ledger.recordOf name,
      (run.owner.renumbered (marked ++ more)).isSome = true := by
  intro run run_mem
  rw [follows.renumbered_append more run run_mem]
  exact follows.known run run_mem

/-- An inquiry about the name is given up under its number, any other one under none. -/
theorem part_abandon (follows : Follows name marked left right) (ticket : Nat) :
    Mirrors (Owner.renumbered marked) name (left.abandon ticket)
      (right.run ((renumber marked ticket).map Action.abandon).toList) := by
  cases renumbered : renumber marked ticket with
  | none =>
      apply follows.part.abandon_left
      rw [Owner.renumbered, renumbered]
      rfl
  | some number =>
      apply follows.part.abandon
      intro run _ owner isOwner
      constructor
      · intro owned
        rw [owned, Owner.renumbered, renumbered] at isOwner
        exact (Option.some.inj isOwner).symm
      · rintro rfl
        cases owned : run.owner with
        | timer =>
            rw [owned] at isOwner
            cases isOwner
        | inquiry other =>
            rw [owned, Owner.renumbered] at isOwner
            rcases Option.map_eq_some_iff.mp isOwner with ⟨number', renumbered', sameNumber⟩
            cases sameNumber
            rw [renumber_inj renumbered renumbered']

/-- What is about the name happens on both sides, anything else on one side only. -/
theorem part_step (follows : Follows name marked left right) (coherent : left.Coherent)
    (coherent' : right.Coherent) (action : Action) :
    Mirrors (Owner.renumbered (marked ++ action.marks name)) name (left.step action)
      (right.run (action.about name marked).toList) := by
  have part := follows.renamed (action.marks name)
  have known := follows.known_append (action.marks name)
  have inStep := part.scheduler.inStep known
  cases action with
  | register options probe =>
      rw [Action.about]
      split
      · exact part.register options probe
      · next unlike => exact part.register_left unlike probe
  | unregister other =>
      rw [Action.about]
      split
      · exact part.unregister other
      · next unlike => exact part.unregister_left unlike
  | destroy => exact part.destroy
  | ask question =>
      rw [Action.about]
      split
      · next concerned =>
          apply part.ask coherent.names_nodup coherent'.names_nodup known
          rw [follows.asked, follows.counted, Action.marks, concerned, Owner.renumbered,
            renumber_length]
          rfl
      · next foreign =>
          exact part.ask_left coherent.names_nodup (Or.inl (by simpa using foreign))
  | abandon ticket =>
      simp only [Action.marks, List.append_nil]
      exact follows.part_abandon ticket
  | advance milliseconds => exact part.advance inStep milliseconds
  | pass milliseconds turns => exact part.pass inStep milliseconds (by simp)

theorem step (follows : Follows name marked left right) (coherent : left.Coherent)
    (coherent' : right.Coherent) (action : Action) :
    Follows name (marked ++ action.marks name) (left.step action)
      (right.run (action.about name marked).toList) where
  asked := by
    rw [asked_step, follows.asked, List.length_append]
    cases action <;> rfl
  counted := by
    rw [List.count_append, ← follows.counted]
    cases action with
    | register options probe =>
        rw [Action.about]
        split
        · exact asked_step right (.register options probe)
        · rfl
    | unregister other =>
        rw [Action.about]
        split <;> rfl
    | destroy => exact asked_step right .destroy
    | ask question =>
        rw [Action.about, Action.marks]
        cases question.concerns name <;> rfl
    | abandon ticket =>
        rw [Action.about]
        cases renumber marked ticket <;> rfl
    | _ => rfl
  known := follows.known_step coherent action
  part := follows.part_step coherent coherent' action

theorem run (follows : Follows name marked left right) (coherent : left.Coherent)
    (coherent' : right.Coherent) (actions : List Action) :
    ∃ marked', Follows name marked' (left.run actions) (right.run (about name marked actions)) := by
  induction actions generalizing marked left right with
  | nil => exact ⟨marked, follows⟩
  | cons action rest ih =>
      rw [about, run_append]
      apply ih (follows.step coherent coherent' action) (coherent.step action)
      exact run_induction Coherent coherent' (fun _ action still => still.step action) _

end Follows

section Cut

variable {name : String} {marked : List Bool} {action : Action}

theorem duration_about {part : Action} (isPart : action.about name marked = some part) :
    part.duration = action.duration := by
  cases action with
  | register options probe =>
      rw [Action.about, Option.ite_none_right_eq_some] at isPart
      cases isPart.2
      rfl
  | unregister other =>
      rw [Action.about, Option.ite_none_right_eq_some] at isPart
      cases isPart.2
      rfl
  | ask question =>
      rw [Action.about, Option.ite_none_right_eq_some] at isPart
      cases isPart.2
      rfl
  | abandon ticket =>
      rcases Option.map_eq_some_iff.mp isPart with ⟨number, _, rfl⟩
      rfl
  | _ =>
      cases isPart
      rfl

theorem duration_of_about_eq_none (gone : action.about name marked = none) :
    action.duration = 0 := by
  cases action with
  | advance milliseconds => cases gone
  | pass milliseconds turns => cases gone
  | _ => rfl

theorem about_within (limit : Nat) :
    (action.within limit).about name marked =
      (action.about name marked).map (·.within limit) := by
  cases action with
  | register options probe =>
      simp only [Action.within, Action.about]
      split <;> rfl
  | unregister other =>
      simp only [Action.within, Action.about]
      split <;> rfl
  | ask question =>
      simp only [Action.within, Action.about]
      split <;> rfl
  | abandon ticket =>
      simp only [Action.within, Action.about, Option.map_map]
      rfl
  | _ => rfl

/-- To cut a run and to leave in it what is about a name can be done in either order. -/
theorem about_upTo (elapsed : Nat) (actions : List Action) :
    about name marked (upTo elapsed actions) = upTo elapsed (about name marked actions) := by
  induction actions generalizing elapsed marked with
  | nil => rfl
  | cons action rest ih =>
      rw [about, upTo]
      cases part : action.about name marked with
      | none =>
          have timeless := duration_of_about_eq_none part
          rw [timeless, if_pos (Nat.zero_le _), Nat.sub_zero, about, part, ih]
          rfl
      | some own =>
          have sameDuration := duration_about part
          rw [Option.toList_some, List.singleton_append, upTo, sameDuration]
          split
          · rw [about, part, ih]
            rfl
          · rw [about, about_within, part]
            rfl

end Cut

theorem business_upTo (name : String) (elapsed : Nat) (actions : List Action) :
    business name (upTo elapsed actions) = upTo elapsed (business name actions) := by
  rw [business, business, about_upTo, timeline_upTo]

/-- A run agrees on a name with what is the business of the name in it. -/
theorem sameFor_business (version : String) (created : Nat) (name : String)
    (actions : List Action) :
    SameFor name ((create version created).run actions)
      ((create version created).run (business name actions)) := by
  have coherent := coherent_create version created
  rcases (Follows.create version created name).run coherent coherent actions with
    ⟨marked, follows⟩
  have joined := alike_timeline_of_run version created (about name [] actions)
  exact (follows.part.trans (joined.parts name)).sameFor follows.known

/-- Names are isolated from each other. Two runs in which the same is about a name, at the same
virtual times, agree in everything about the name at every instant, whatever happens to other names
meanwhile and however their probes behave. -/
theorem isolated_name_of_run (version : String) (created : Nat) (name : String)
    (left right : List Action) (same : business name left = business name right) (elapsed : Nat) :
    SameFor name ((create version created).run (upTo elapsed left))
      ((create version created).run (upTo elapsed right)) := by
  have fromLeft := sameFor_business version created name (upTo elapsed left)
  have fromRight := sameFor_business version created name (upTo elapsed right)
  rw [business_upTo, same, ← business_upTo] at fromLeft
  exact fromLeft.trans fromRight.symm

theorem isolated_name_of_hanging_neighbour :
    let enters : Action :=
      .register ⟨"db", 50, true, some 10⟩ fun call => .ends call (.failed "down" [])
    let left := [enters, .advance 15, .ask .all, .advance 3, .abandon 0, .advance 30]
    let right :=
      [.register ⟨"cache", 20, true, some 3⟩ fun _ => .hangs, enters, .advance 7,
        .ask (.one "cache"), .advance 8, .ask .all, .unregister "cache", .abandon 0, .advance 3,
        .abandon 1, .advance 30]
    SameFor "db" ((create "1.0.0" 0).run (upTo 40 left))
      ((create "1.0.0" 0).run (upTo 40 right)) := by
  intro enters left right
  exact isolated_name_of_run "1.0.0" 0 "db" left right rfl 40

end Registry

end Vitals
