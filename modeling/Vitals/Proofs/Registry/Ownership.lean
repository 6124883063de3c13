import Vitals.Proofs.Polling.Fate
import Vitals.Proofs.Registry.Inquiries
import Vitals.Proofs.Registry.Pace
import Vitals.Proofs.Registry.Teardown

/-!
# No orphaned calls

A call of a probe runs only as long as somebody waits for it. The calls that timers make are the
affair of the scheduler. What is left are the calls on demand: each belongs to an inquiry that is
pending, and an inquiry that is given up or over leaves none of its calls under way.
-/

namespace Vitals

/-- An inquiry that is over waits for nothing. -/
theorem Inquiry.awaited_eq_nil {inquiry : Inquiry} {now : Nat} (finished : inquiry.endsAt ≤ now) :
    inquiry.awaited now = [] := by
  rw [awaited, List.filter_eq_nil_iff]
  intro charge charge_mem
  rw [runs, List.map_map] at charge_mem
  rcases List.mem_map.mp charge_mem with ⟨entry, entry_mem, rfl⟩
  have ended : ¬now < entry.2.endsAt :=
    Nat.not_lt.mpr (Nat.le_trans (endsAt_le (List.mem_map_of_mem entry_mem)) finished)
  simp [Charge.lasts, Run.charge, ended]

namespace Registry

variable {registry : Registry}

/-- The calls on demand that are under way are those that pending inquiries wait for. -/
structure Expected (registry : Registry) : Prop where
  tickets_nodup : (registry.pending.map (·.ticket)).Nodup
  minds : ∀ inquiry ∈ registry.pending, inquiry.Minds registry.now
  perm : (registry.scheduler.ledger.charges.filter (!·.owner == .timer)).Perm
    (registry.pending.flatMap (·.awaited registry.now))

theorem expected_create (version : String) (created : Nat) : (create version created).Expected where
  tickets_nodup := List.nodup_nil
  minds := fun _ none => absurd none List.not_mem_nil
  perm := List.Perm.nil

theorem minds_inquiry (names_nodup : registry.names.Nodup) (question : Question) :
    (registry.inquiry question).Minds registry.now where
  names_nodup := by
    have entries : (registry.inquiry question).entries.map (·.1.options.name) =
        (registry.concerned question).map (·.options.name) := by
      simp only [inquiry, List.map_map]
      rfl
    rw [entries]
    cases question with
    | one name =>
        rw [concerned]
        cases registry.find? name <;> simp
    | all => exact names_nodup
  started := by
    intro entry entry_mem
    rcases List.mem_map.mp entry_mem with ⟨registration, _, rfl⟩
    exact ⟨rfl, Nat.le_refl _⟩

theorem pending_ask_sublist (question : Question) :
    (registry.ask question).pending.Sublist (registry.pending ++ [registry.inquiry question]) := by
  rw [ask]
  split
  · exact List.Sublist.refl _
  · exact List.sublist_append_left _ _

theorem charges_ask (question : Question) :
    (registry.ask question).scheduler.ledger.charges =
      registry.scheduler.ledger.charges ++ (registry.inquiry question).awaited registry.now := by
  rw [ask, Ledger.charges_record]
  congr 1
  apply Run.map_charge_filter
  intro run run_mem
  rcases List.mem_map.mp run_mem with ⟨entry, _, rfl⟩
  rfl

/-- An inquiry that is over at once is not pending, and it waits for nothing either. -/
theorem awaited_ask (question : Question) :
    (registry.ask question).pending.flatMap (·.awaited registry.now) =
      registry.pending.flatMap (·.awaited registry.now) ++
        (registry.inquiry question).awaited registry.now := by
  simp only [ask]
  split
  · rw [List.flatMap_append, List.flatMap_singleton]
  · next finished => rw [Inquiry.awaited_eq_nil (Nat.not_lt.mp finished), List.append_nil]

theorem awaited_abandon (ticket : Nat) :
    (registry.abandon ticket).pending.flatMap (·.awaited registry.now) =
      (registry.pending.flatMap (·.awaited registry.now)).filter (!·.owner == .inquiry ticket) := by
  apply flatMap_filter_of_agree
  intro inquiry _ charge charge_mem
  have sameTicket : (Owner.inquiry inquiry.ticket == .inquiry ticket) =
      (inquiry.ticket == ticket) := by
    rw [Bool.eq_iff_iff]
    simp
  rw [Inquiry.owner_of_mem_awaited charge_mem, sameTicket]
  rfl

/-- Of what is waited for, that which is not over yet is still waited for. -/
theorem awaited_pass (milliseconds : Nat) (turns : String → Nat) :
    (registry.pass milliseconds turns).pending.flatMap
        (·.awaited (registry.now + milliseconds)) =
      (registry.pending.flatMap (·.awaited registry.now)).filter
        (·.lasts (registry.now + milliseconds)) := by
  have le : registry.now ≤ registry.now + milliseconds := Nat.le_add_right _ _
  calc (registry.pass milliseconds turns).pending.flatMap (·.awaited (registry.now + milliseconds))
      = (registry.pending.flatMap (·.awaited (registry.now + milliseconds))).filter
          (fun _ => true) := by
        apply flatMap_filter_of_agree
        intro inquiry _ charge charge_mem
        by_cases waits : registry.now + milliseconds < inquiry.endsAt
        · simp [waits]
        · rw [Inquiry.awaited_eq_nil (Nat.not_lt.mp waits)] at charge_mem
          exact absurd charge_mem List.not_mem_nil
    _ = registry.pending.flatMap (·.awaited (registry.now + milliseconds)) :=
        List.filter_true _
    _ = (registry.pending.flatMap (·.awaited registry.now)).filter
          (·.lasts (registry.now + milliseconds)) := by
        rw [List.filter_flatMap]
        congr 1
        funext inquiry
        exact (Charge.filter_lasts le _).symm

namespace Expected

/-- What takes timers away does not touch the calls on demand. -/
theorem of_timers_cancelled (expected : registry.Expected) (next : Registry)
    (pending : next.pending = registry.pending) (now : next.now = registry.now)
    (strikes : Charge → Bool)
    (charges : next.scheduler.ledger.charges =
      registry.scheduler.ledger.charges.filter fun charge =>
        !(charge.owner == .timer && strikes charge)) : next.Expected where
  tickets_nodup := by
    rw [pending]
    exact expected.tickets_nodup
  minds := by
    rw [pending, now]
    exact expected.minds
  perm := by
    have untouched : next.scheduler.ledger.charges.filter (!·.owner == .timer) =
        registry.scheduler.ledger.charges.filter (!·.owner == .timer) := by
      rw [charges, List.filter_filter]
      apply List.filter_congr
      intro charge _
      cases charge.owner == .timer <;> rfl
    rw [untouched, pending, now]
    exact expected.perm

theorem enter (expected : registry.Expected) (options : Options) (probe : Probe) :
    (registry.enter options probe).Expected := by
  refine expected.of_timers_cancelled (registry.enter options probe) rfl ?_
    (·.name == options.name) ?_
  · rw [now, Registry.enter, Scheduler.now, Scheduler.ledger_launch]
    rfl
  · rw [Registry.enter, Scheduler.ledger_launch, Ledger.charges_cancel_timer]
    rfl

theorem unregister (expected : registry.Expected) (name : String) :
    (registry.unregister name).Expected :=
  expected.of_timers_cancelled (registry.unregister name) rfl rfl (·.name == name)
    (registry.scheduler.ledger.charges_cancel_timer name)

theorem destroy (expected : registry.Expected) : registry.destroy.Expected := by
  cases destroyed : registry.destroyed with
  | true =>
      rw [Registry.destroy, if_pos destroyed]
      exact expected
  | false =>
      have alive : registry.destroyed ≠ true := ne_true_of_eq_false destroyed
      refine expected.of_timers_cancelled registry.destroy ?_ ?_ (fun _ => true) ?_
      · rw [Registry.destroy, if_neg alive]
      · rw [Registry.destroy, if_neg alive]
        rfl
      · simp only [Registry.destroy, if_neg alive, Scheduler.ledger_stopAll,
          Ledger.charges_cancel_timers, Bool.and_true]

theorem ask (expected : registry.Expected) (ticketed : registry.Ticketed)
    (names_nodup : registry.names.Nodup) (question : Question) :
    (registry.ask question).Expected where
  tickets_nodup := by
    have nodup : ((registry.pending ++ [registry.inquiry question]).map (·.ticket)).Nodup := by
      rw [List.map_append]
      apply expected.tickets_nodup.append (List.nodup_singleton _)
      intro ticket old new
      rcases List.mem_map.mp old with ⟨earlier, earlier_mem, rfl⟩
      have lower := ticketed.pending earlier earlier_mem
      rw [List.mem_singleton.mp new] at lower
      exact Nat.lt_irrefl _ lower
    exact nodup.sublist ((pending_ask_sublist question).map _)
  minds := by
    intro inquiry inquiry_mem
    rcases List.mem_append.mp ((pending_ask_sublist question).subset inquiry_mem) with old | new
    · exact expected.minds inquiry old
    · rw [List.mem_singleton.mp new]
      exact minds_inquiry names_nodup question
  perm := by
    have onDemand : ((registry.inquiry question).awaited registry.now).filter
        (!·.owner == .timer) = (registry.inquiry question).awaited registry.now := by
      rw [List.filter_eq_self]
      intro charge charge_mem
      simp [Inquiry.owner_of_mem_awaited charge_mem]
    have sameNow : (registry.ask question).now = registry.now := rfl
    rw [sameNow, charges_ask, List.filter_append, onDemand, awaited_ask]
    exact expected.perm.append_right _

theorem abandon (expected : registry.Expected) (ticket : Nat) :
    (registry.abandon ticket).Expected where
  tickets_nodup := expected.tickets_nodup.sublist (List.filter_sublist.map _)
  minds := fun inquiry inquiry_mem => expected.minds inquiry (List.mem_filter.mp inquiry_mem).1
  perm := by
    have sameNow : (registry.abandon ticket).now = registry.now := rfl
    rw [sameNow, awaited_abandon, Registry.abandon, Ledger.charges_cancel_inquiry,
      List.filter_comm]
    exact expected.perm.filter _

theorem pass (expected : registry.Expected) (milliseconds : Nat) (turns : String → Nat) :
    (registry.pass milliseconds turns).Expected where
  tickets_nodup := expected.tickets_nodup.sublist (List.filter_sublist.map _)
  minds := fun inquiry inquiry_mem =>
    (expected.minds inquiry (List.mem_filter.mp inquiry_mem).1).of_le (Nat.le_add_right _ _)
  perm := by
    have charges : (registry.pass milliseconds turns).scheduler.ledger.charges =
        registry.scheduler.ledger.charges.filter (·.lasts (registry.now + milliseconds)) ++
          (registry.scheduler.timers.flatMap fun timer => timer.begun
            (registry.scheduler.courseWithin (registry.now + milliseconds) turns timer)).filter
              (·.lasts (registry.now + milliseconds)) :=
      Scheduler.charges_follow (Nat.le_add_right _ _) _
    have ofTimers : ((registry.scheduler.timers.flatMap fun timer => timer.begun
        (registry.scheduler.courseWithin (registry.now + milliseconds) turns timer)).filter
          (·.lasts (registry.now + milliseconds))).filter (!·.owner == .timer) = [] := by
      rw [List.filter_eq_nil_iff]
      intro charge charge_mem
      simp [Scheduler.owner_of_mem_begun (List.mem_filter.mp charge_mem).1]
    have later : (registry.pass milliseconds turns).now = registry.now + milliseconds := rfl
    rw [later, charges, List.filter_append, ofTimers, List.append_nil, List.filter_comm,
      awaited_pass]
    exact expected.perm.filter _

theorem step (expected : registry.Expected) (ticketed : registry.Ticketed)
    (names_nodup : registry.names.Nodup) (action : Action) : (registry.step action).Expected := by
  cases action with
  | register options probe =>
      rw [step_register]
      split
      · exact expected.enter options probe
      · exact expected
  | unregister name => exact expected.unregister name
  | destroy => exact expected.destroy
  | ask question => exact expected.ask ticketed names_nodup question
  | abandon ticket => exact expected.abandon ticket
  | advance milliseconds =>
      have passed := expected.pass milliseconds
        fun _ => registry.scheduler.workload (registry.scheduler.now + milliseconds)
      rw [Registry.pass, ← Scheduler.advance_eq_pass] at passed
      exact passed
  | pass milliseconds turns => exact expected.pass milliseconds turns

/-- What the timers wait for and what the inquiries wait for is all that is under way. -/
theorem accounted (expected : registry.Expected) (attended : registry.scheduler.Attended)
    (orderly : registry.scheduler.Orderly) :
    registry.scheduler.Accounted registry.pending := by
  have names_nodup := orderly.names_nodup
  rw [Scheduler.polled, List.map_map] at names_nodup
  exact (attended.owned names_nodup expected.tickets_nodup expected.minds expected.perm).accounted
    attended

end Expected

theorem expected_run (version : String) (created : Nat) (actions : List Action) :
    ((create version created).run actions).Expected := by
  have together : ((create version created).run actions).Coherent ∧
      ((create version created).run actions).Ticketed ∧
      ((create version created).run actions).Expected :=
    run_induction (fun registry => registry.Coherent ∧ registry.Ticketed ∧ registry.Expected)
      ⟨coherent_create version created, ticketed_create version created,
        expected_create version created⟩
      (fun _ action ⟨coherent, ticketed, expected⟩ =>
        ⟨coherent.step action, ticketed.step action,
          expected.step ticketed coherent.names_nodup action⟩)
      actions
  exact together.2.2

theorem attended_run (version : String) (created : Nat) (actions : List Action) :
    ((create version created).run actions).scheduler.Attended := by
  rw [scheduler_run]
  exact (Scheduler.attended_startingAt created).run _

/-- After an action, nobody waits any more for the timers and the inquiries that it takes away. -/
theorem kept_of_mem_waiting (coherent : registry.Coherent)
    (attended : registry.scheduler.Attended) {action : Action} {charge : Charge}
    (awaits : charge ∈ (registry.step action).scheduler.waiting (registry.step action).pending) :
    (charge.owner = .timer → registry.removes charge.name action = false) ∧
      ∀ ticket, charge.owner = .inquiry ticket → action ≠ .abandon ticket := by
  constructor
  · intro ofTimer
    have awaited : charge ∈ (registry.step action).scheduler.awaited := by
      rcases List.mem_append.mp awaits with byTimer | byInquiry
      · exact byTimer
      · rcases List.mem_flatMap.mp byInquiry with ⟨inquiry, _, own⟩
        cases ofTimer.symm.trans (Inquiry.owner_of_mem_awaited own)
    cases action with
    | register options probe =>
        rw [step_register] at awaited
        cases accepted : registry.accepts options with
        | false => simp [Registry.removes, accepted]
        | true =>
            rw [accepted] at awaited
            have kept :=
              Scheduler.removes_of_mem_awaited_step attended (.start options probe) awaited
            simpa [Registry.removes, accepted, Scheduler.Action.removes] using kept
    | unregister name =>
        exact Scheduler.removes_of_mem_awaited_step attended (.stop name) awaited
    | destroy =>
        -- A second destruction orders nothing, so the step of the scheduler does not tell this.
        have destroyed := (destroyed_step registry .destroy).mpr (Or.inr rfl)
        rw [Scheduler.awaited, (coherent.step .destroy).timers_eq_nil destroyed] at awaited
        exact absurd awaited List.not_mem_nil
    | _ => rfl
  · rintro ticket ofInquiry rfl
    rcases List.mem_append.mp awaits with byTimer | byInquiry
    · cases ofInquiry.symm.trans (Scheduler.owner_of_mem_awaited byTimer)
    · rcases List.mem_flatMap.mp byInquiry with ⟨inquiry, inquiry_mem, own⟩
      have sameTicket := Owner.inquiry.inj
        ((Inquiry.owner_of_mem_awaited own).symm.trans ofInquiry)
      have unlike := (List.mem_filter.mp inquiry_mem).2
      simp [sameTicket] at unlike

/-- What an action leaves to nobody is settled, because the action orders at most one thing of the
scheduler. -/
theorem settled_step {action : Action}
    (owned : (registry.step action).scheduler.Owned (registry.step action).pending)
    (later : List Action) :
    registry.scheduler.Settled (registry.step action).scheduler (registry.step action).pending
      ((registry.step action).run later).scheduler := by
  have single : (registry.stepOrders action).length ≤ 1 := by
    rcases registry.stepOrders_eq action with idle | ⟨order, ordered, _⟩
    · simp [idle]
    · simp [ordered]
  rw [scheduler_run]
  generalize (registry.step action).orders later = orders
  rw [scheduler_step] at owned ⊢
  exact Scheduler.settled_of_owned _ single owned orders

/-- When a registry goes, its timers go, and only the inquiries are waited for. -/
theorem accounted_drop (expected : registry.Expected) (attended : registry.scheduler.Attended)
    (orderly : registry.scheduler.Orderly) :
    registry.scheduler.drop.Accounted registry.pending := by
  have still : { registry with scheduler := registry.scheduler.drop }.Expected := by
    refine expected.of_timers_cancelled _ rfl rfl (fun _ => true) ?_
    simp only [Scheduler.ledger_drop, Ledger.charges_cancel_timers, Bool.and_true]
  exact still.accounted (attended.step .drop) (orderly.step .drop)

/-- No call is an orphan. After every run, the calls under way and those who wait for them, timers
and pending inquiries, are one to one, and each call is within its timeout. Whatever happens next,
nobody waits for what it takes away, and what nobody waits for any more does not come to its own
end later, whatever follows. -/
theorem no_orphans_of_run :
    (∀ (start : Nat) (actions : List Scheduler.Action),
      (∀ inquiry, .inquire inquiry ∉ actions) →
      let scheduler := (Scheduler.startingAt start).run actions
      scheduler.Accounted [] ∧
      ∀ (action : Scheduler.Action) (later : List Scheduler.Action),
        (∀ inquiry, action ≠ .inquire inquiry) →
        (∀ charge ∈ (scheduler.step action).awaited, action.removes charge.name = false) ∧
        scheduler.Settled (scheduler.step action) [] (scheduler.run (action :: later))) ∧
    (∀ (version : String) (created : Nat) (actions : List Action),
      let registry := (create version created).run actions
      registry.scheduler.Accounted registry.pending ∧
      (∀ (action : Action) (later : List Action),
        let next := registry.step action
        (∀ charge ∈ next.scheduler.waiting next.pending,
          (charge.owner = .timer → registry.removes charge.name action = false) ∧
          ∀ ticket, charge.owner = .inquiry ticket → action ≠ .abandon ticket) ∧
        registry.scheduler.Settled next.scheduler next.pending (next.run later).scheduler) ∧
      ∀ later : List Scheduler.Action,
        registry.scheduler.drop.awaited = [] ∧
        registry.scheduler.drop.Accounted registry.pending ∧
        registry.scheduler.Settled registry.scheduler.drop registry.pending
          (registry.scheduler.drop.run later)) := by
  refine ⟨?_, ?_⟩
  · intro start actions unasked scheduler
    have attended : scheduler.Attended := (Scheduler.attended_startingAt start).run actions
    refine ⟨(Scheduler.owned_run_of_unasked start unasked).accounted attended, ?_⟩
    intro action later unlike
    refine ⟨fun charge awaits => Scheduler.removes_of_mem_awaited_step attended action awaits, ?_⟩
    have still : ∀ inquiry, .inquire inquiry ∉ actions ++ [action] := by
      intro inquiry asked
      rcases List.mem_append.mp asked with before | last
      · exact unasked inquiry before
      · exact unlike inquiry (List.mem_singleton.mp last).symm
    have owned := Scheduler.owned_run_of_unasked start still
    rw [Scheduler.run_append] at owned
    exact Scheduler.settled_of_owned [action] (Nat.le_refl 1) owned later
  · intro version created actions registry
    have coherent : registry.Coherent := coherent_run version created actions
    have attended : registry.scheduler.Attended := attended_run version created actions
    have orderly : registry.scheduler.Orderly := orderly_run version created actions
    have expected : registry.Expected := expected_run version created actions
    refine ⟨expected.accounted attended orderly, ?_, ?_⟩
    · intro action later next
      refine ⟨fun charge awaits => kept_of_mem_waiting coherent attended awaits, ?_⟩
      have next_eq : next = (create version created).run (actions ++ [action]) :=
        (run_concat _ actions action).symm
      have accounted : next.scheduler.Accounted next.pending := by
        rw [next_eq]
        exact (expected_run version created _).accounted (attended_run version created _)
          (orderly_run version created _)
      exact settled_step accounted.owned later
    · intro later
      have gone := accounted_drop expected attended orderly
      exact ⟨rfl, gone, Scheduler.settled_of_owned [.drop] (Nat.le_refl 1) gone.owned later⟩

theorem no_orphans_of_hanging_probe :
    let options : Options := ⟨"db", 50, false, some 10⟩
    let probe : Probe := fun _ => .hangs
    let tick : Run := ⟨0, .timer, some 10, ⟨options, .hangs, 10⟩, none⟩
    let answer : Run := ⟨0, .inquiry 0, none, ⟨options, .hangs, 12⟩, none⟩
    let scheduler := (Scheduler.startingAt 0).run [.start options probe, .pass 12 fun _ => 3]
    let registry := (create "1.0.0" 0).run
      [.register options probe, .pass 12 fun _ => 3, .ask (.one "db")]
    (scheduler.ledger.inFlight = [tick] ∧ scheduler.Accounted [] ∧
      (scheduler.run [.stop "db", .advance 100]).ledger.Settles 0 tick 12) ∧
    (registry.scheduler.ledger.inFlight = [tick, answer] ∧
      registry.scheduler.Accounted registry.pending ∧
      (registry.run [.abandon 0, .advance 100]).scheduler.ledger.Settles 1 answer 12 ∧
      (registry.scheduler.drop.run [.advance 100]).ledger.Settles 0 tick 12) := by
  constructor
  · have orphanless := no_orphans_of_run.1 0
      [.start ⟨"db", 50, false, some 10⟩ fun _ => .hangs, .pass 12 fun _ => 3] (by simp)
    have stopped := (orphanless.2 (.stop "db") [.advance 100] (by simp)).2
    exact ⟨rfl, orphanless.1, stopped 0 _ rfl rfl List.not_mem_nil⟩
  · have orphanless := no_orphans_of_run.2 "1.0.0" 0
      [.register ⟨"db", 50, false, some 10⟩ fun _ => .hangs, .pass 12 fun _ => 3, .ask (.one "db")]
    have abandoned := orphanless.2.1 (.abandon 0) [.advance 100]
    have dropped := (orphanless.2.2 [.advance 100]).2.2
    refine ⟨rfl, orphanless.1, abandoned.2 1 _ rfl rfl ?_, dropped 0 _ rfl rfl ?_⟩
    · intro awaits
      exact (abandoned.1 _ awaits).2 0 rfl rfl
    · intro awaits
      rcases List.mem_flatMap.mp awaits with ⟨inquiry, _, own⟩
      cases Inquiry.owner_of_mem_awaited own

end Registry

end Vitals
