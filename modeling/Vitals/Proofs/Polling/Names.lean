import Vitals.Proofs.Polling.Timers

/-!
# A scheduler by names

All names share one list of timers, one map of results and one record of executions. What an
operation does for one name depends on the part of each that belongs to the name, and leaves the
parts of all other names alone. The record may tell apart those who wait, timers and inquiries;
`Mirrors` compares the part of a name in two schedulers whose inquiries have different tickets, or
of which one knows no inquiries.
-/

namespace Vitals

/-- Where names are different, one member at most has a name, and that is the one to be found. -/
theorem filter_eq_toList_find? {α : Type} {nameOf : α → String} {members : List α}
    (nodup : (members.map nameOf).Nodup) (name : String) :
    members.filter (nameOf · == name) = (members.find? (nameOf · == name)).toList := by
  induction members with
  | nil => rfl
  | cons member rest ih =>
      rw [List.map_cons, List.nodup_cons] at nodup
      by_cases named : nameOf member = name
      · have alone : rest.filter (nameOf · == name) = [] := by
          rw [List.filter_eq_nil_iff]
          intro other other_mem sameName
          apply nodup.1
          rw [named, ← beq_iff_eq.mp sameName]
          exact List.mem_map_of_mem other_mem
        simp [named, alone]
      · simpa [named] using ih nodup.2

namespace Run

def ownedBy (run : Run) (owner : Owner) : Run := { run with owner := owner }

/-- The record when those who wait are called by other names. What is done for somebody without a
new name is left out. -/
def rename? (rename : Owner → Option Owner) (run : Run) : Option Run :=
  (rename run.owner).map run.ownedBy

@[simp]
theorem rename?_some (run : Run) : run.rename? some = some run := rfl

end Run

namespace Ledger

variable {ledger : Ledger} {name : String}

/-- The executions of a name. -/
def recordOf (ledger : Ledger) (name : String) : List Run := ledger.runs.filter (·.name == name)

/-- What concerns the timers of one name concerns no execution of another. -/
theorem unconcerned_of_mem_recordOf {run : Run} (run_mem : run ∈ ledger.recordOf name)
    {other : String} (unlike : other ≠ name) :
    (run.owner == .timer && run.name == other) = false := by
  have named : run.name = name := by simpa using (List.mem_filter.mp run_mem).2
  simp [named, Ne.symm unlike]

theorem name_strike (concerns : Run → Bool) (run : Run) :
    (ledger.strike concerns run).name = run.name := by
  rw [Run.name, execution_strike, Run.name]

theorem recordOf_cancel (concerns : Run → Bool) :
    (ledger.cancel concerns).recordOf name =
      (ledger.recordOf name).map (ledger.strike concerns) := by
  apply ledger.filter_runs_cancel concerns
  intro run
  rw [name_strike]

theorem recordOf_record (runs : List Run) :
    (ledger.record runs).recordOf name = ledger.recordOf name ++ runs.filter (·.name == name) :=
  List.filter_append _ _

/-- How often a probe was called shows in the record of its name. -/
theorem callsStarted_eq_countP (serial : Nat) :
    ledger.callsStarted name serial =
      (ledger.recordOf name).countP fun run => run.serial == serial && run.execution.calls := by
  rw [callsStarted, recordOf, List.countP_filter]
  apply List.countP_congr
  intro run _
  simp only [Run.isOf, Bool.and_eq_true]
  tauto

/-- To be struck off the record goes by who waits, so it goes with the new names. -/
theorem rename?_strike {other : Ledger} (sameNow : ledger.now = other.now)
    {rename : Owner → Option Owner} {concerns concerns' : Run → Bool} {run : Run}
    (agree : ∀ renamed ∈ run.rename? rename, concerns run = concerns' renamed) :
    (ledger.strike concerns run).rename? rename =
      (run.rename? rename).map (other.strike concerns') := by
  rw [Run.rename?, owner_strike]
  cases owner : rename run.owner with
  | none => simp [Run.rename?, owner]
  | some owner' =>
      have sameConcern : concerns run = concerns' (run.ownedBy owner') :=
        agree _ (by simp [Run.rename?, owner])
      have sameOpen : (run.ownedBy owner').isOpen other.now = run.isOpen ledger.now := by
        rw [sameNow]
        rfl
      rw [Run.rename?, owner]
      simp only [Option.map_some, Option.some.injEq, strike, sameConcern, sameOpen, sameNow]
      split <;> rfl

end Ledger

namespace Scheduler

variable {scheduler : Scheduler} {name : String} {courseOf : Timer → Timer.Course}

/-- The timers of a name; there is one at most. -/
def timersOf (scheduler : Scheduler) (name : String) : List Timer :=
  scheduler.timers.filter (·.name == name)

theorem isPolling_eq (scheduler : Scheduler) (name : String) :
    scheduler.isPolling name = !(scheduler.timersOf name).isEmpty := by
  rw [isPolling, timersOf, Bool.eq_iff_iff]
  simp [List.any_eq_true, List.filter_eq_nil_iff]

theorem name_of_mem_timersOf {timer : Timer} (timer_mem : timer ∈ scheduler.timersOf name) :
    timer.name = name := by
  simpa using (List.mem_filter.mp timer_mem).2

theorem timersOf_eq (names_nodup : (scheduler.polled.map (·.options.name)).Nodup)
    (name : String) :
    scheduler.timersOf name = [] ∨ ∃ timer, scheduler.timersOf name = [timer] := by
  rw [polled, List.map_map] at names_nodup
  have single : scheduler.timersOf name = (scheduler.timers.find? (·.name == name)).toList :=
    filter_eq_toList_find? names_nodup name
  rw [single]
  cases scheduler.timers.find? (·.name == name) with
  | none => exact Or.inl rfl
  | some timer => exact Or.inr ⟨timer, rfl⟩

theorem timersOf_stop (other : String) :
    (scheduler.stop other).timersOf name =
      if name = other then [] else scheduler.timersOf name := by
  have filtered : (scheduler.stop other).timersOf name =
      (scheduler.timers.filter (·.name != other)).filter (·.name == name) := rfl
  rw [filtered, List.filter_filter, timersOf]
  split
  · next same =>
      rw [List.filter_eq_nil_iff]
      simp [same]
  · next unlike =>
      apply List.filter_congr
      intro timer _
      by_cases named : timer.name = name
      · simp [named, unlike]
      · simp [named]

theorem timersOf_launch (options : Options) (probe : Probe) :
    (scheduler.launch options probe).timersOf name =
      if name = options.name then
        (options.interval.map fun period => Timer.start scheduler.now period
          (scheduler.ledger.registration options probe)).toList
      else scheduler.timersOf name := by
  have old : (scheduler.timers.filter (·.name != options.name)).filter (·.name == name) =
      if name = options.name then [] else scheduler.timersOf name := timersOf_stop options.name
  have new (period : Nat) : (Timer.start scheduler.now period
      (scheduler.ledger.registration options probe)).name = options.name := rfl
  rw [timersOf, timers_launch, List.filter_append, old]
  cases options.interval with
  | none => simp
  | some period =>
      by_cases same : name = options.name
      · simp [same, new]
      · simp [same, new, Ne.symm same]

theorem timersOf_follow (isOf : ∀ timer, (courseOf timer).IsOf timer) (horizon : Nat) :
    (scheduler.follow horizon courseOf).timersOf name =
      (scheduler.timersOf name).map fun timer => (courseOf timer).timer := by
  have sameName (timer : Timer) : (courseOf timer).timer.name = timer.name := by
    rw [Timer.name, (isOf timer).registration, Timer.name]
  simp only [timersOf, follow, List.map_map, List.filter_map, Function.comp_def, sameName]

theorem isOf_course (scheduler : Scheduler) (horizon : Nat) (timer : Timer) :
    (scheduler.course horizon timer).IsOf timer :=
  Timer.Course.isOf_advance horizon _ timer

theorem recordOf_follow (isOf : ∀ timer, (courseOf timer).IsOf timer) (horizon : Nat) :
    (scheduler.follow horizon courseOf).ledger.recordOf name =
      scheduler.ledger.recordOf name ++
        (scheduler.timersOf name).flatMap fun timer => runsOf timer (courseOf timer) := by
  have agree : ∀ timer ∈ scheduler.timers, ∀ run ∈ runsOf timer (courseOf timer),
      (run.name == name) = (timer.name == name) := by
    intro timer _ run run_mem
    rcases List.mem_map.mp run_mem with ⟨tick, tick_mem, rfl⟩
    simp only [Run.name, (isOf timer).options tick tick_mem, Timer.name]
  rw [Ledger.recordOf, runs_follow, List.filter_append, timersOf, flatMap_filter_of_agree agree]
  rfl

theorem last?_deliveriesOf (name : String) (courseOf : Timer → Timer.Course) :
    Delivery.last? (·.name == name) (scheduler.deliveriesOf courseOf) =
      ((scheduler.timersOf name).flatMap fun timer => (courseOf timer).ended).getLast?.map
        Execution.result := by
  have agree : ∀ timer ∈ scheduler.timers,
      ∀ delivery ∈ (courseOf timer).ended.map (Delivery.mk timer.registration),
        (delivery.name == name) = (timer.name == name) := by
    intro timer _ delivery delivery_mem
    rcases List.mem_map.mp delivery_mem with ⟨execution, _, rfl⟩
    rfl
  rw [Delivery.last?, deliveriesOf, ← flatMap_filter_of_agree agree, ← List.getLast?_map,
    ← List.getLast?_map, List.map_flatMap, List.map_flatMap, timersOf]
  simp only [List.map_map]
  rfl

/-- The part of a name in one scheduler is its part in another, when those who wait are called by
other names. Timers keep theirs. -/
structure Mirrors (rename : Owner → Option Owner) (name : String) (left right : Scheduler) :
    Prop where
  timer : ∀ owner, rename owner = some .timer ↔ owner = .timer
  now : left.now = right.now
  issued : left.ledger.issued.count name = right.ledger.issued.count name
  timers : left.timersOf name = right.timersOf name
  cached : left.cached name = right.cached name
  record : (left.ledger.recordOf name).filterMap (·.rename? rename) = right.ledger.recordOf name

/-- The timers of a name take the same turns in two schedulers, and call the probe alike. -/
def InStep (name : String) (left right : Scheduler) : Prop :=
  ∀ timer ∈ left.timersOf name, ∀ horizon turns,
    timer.proceed horizon turns
        (left.ledger.callsStarted timer.name timer.registration.serial) =
      timer.proceed horizon turns
        (right.ledger.callsStarted timer.name timer.registration.serial)

namespace Mirrors

variable {rename : Owner → Option Owner} {left right : Scheduler}

theorem refl (scheduler : Scheduler) (name : String) : Mirrors some name scheduler scheduler where
  timer := fun _ => Option.some_inj
  now := rfl
  issued := rfl
  timers := rfl
  cached := rfl
  record := List.filterMap_some

theorem trans {next : Scheduler} (mirrors : Mirrors rename name left right)
    (further : Mirrors some name right next) : Mirrors rename name left next where
  timer := mirrors.timer
  now := mirrors.now.trans further.now
  issued := mirrors.issued.trans further.issued
  timers := mirrors.timers.trans further.timers
  cached := mirrors.cached.trans further.cached
  record := by
    have same : right.ledger.recordOf name = next.ledger.recordOf name :=
      List.filterMap_some.symm.trans further.record
    rw [← same]
    exact mirrors.record

/-- Other new names will do if those who wait for executions of the name keep theirs. -/
theorem renamed (mirrors : Mirrors rename name left right) {rename' : Owner → Option Owner}
    (timer : ∀ owner, rename' owner = some .timer ↔ owner = .timer)
    (same : ∀ run ∈ left.ledger.recordOf name, rename' run.owner = rename run.owner) :
    Mirrors rename' name left right where
  timer := timer
  now := mirrors.now
  issued := mirrors.issued
  timers := mirrors.timers
  cached := mirrors.cached
  record := by
    rw [← mirrors.record]
    apply List.filterMap_congr
    intro run run_mem
    rw [Run.rename?, Run.rename?, same run run_mem]

theorem isPolling (mirrors : Mirrors rename name left right) :
    left.isPolling name = right.isPolling name := by
  rw [isPolling_eq, isPolling_eq, mirrors.timers]

/-- Where everybody has a new name, the calls on record are as many as before. -/
theorem callsStarted (mirrors : Mirrors rename name left right)
    (known : ∀ run ∈ left.ledger.recordOf name, (rename run.owner).isSome = true) (serial : Nat) :
    left.ledger.callsStarted name serial = right.ledger.callsStarted name serial := by
  rw [Ledger.callsStarted_eq_countP, Ledger.callsStarted_eq_countP, ← mirrors.record,
    List.countP_filterMap]
  apply List.countP_congr
  intro run run_mem
  rcases Option.isSome_iff_exists.mp (known run run_mem) with ⟨owner, renamed⟩
  simp [Run.rename?, renamed, Run.ownedBy]

/-- To cancel executions on both sides goes by the new names of those who wait for them. -/
theorem record_cancel (mirrors : Mirrors rename name left right) {concerns concerns' : Run → Bool}
    (agree : ∀ run ∈ left.ledger.recordOf name, ∀ renamed ∈ run.rename? rename,
      concerns run = concerns' renamed) :
    ((left.ledger.cancel concerns).recordOf name).filterMap (·.rename? rename) =
      (right.ledger.cancel concerns').recordOf name := by
  rw [Ledger.recordOf_cancel, Ledger.recordOf_cancel, ← mirrors.record, List.filterMap_map,
    List.map_filterMap]
  apply List.filterMap_congr
  intro run run_mem
  exact Ledger.rename?_strike mirrors.now (agree run run_mem)

/-- To cancel what shows no execution of the name on the other side changes nothing there. -/
theorem record_cancel_left (mirrors : Mirrors rename name left right) {concerns : Run → Bool}
    (foreign : ∀ run ∈ left.ledger.recordOf name, ∀ renamed ∈ run.rename? rename,
      concerns run = false) :
    ((left.ledger.cancel concerns).recordOf name).filterMap (·.rename? rename) =
      right.ledger.recordOf name := by
  have none_struck : right.ledger.strike (fun _ => false) = id := by
    funext run
    exact right.ledger.strike_of_unconcerned _ rfl
  rw [mirrors.record_cancel foreign, Ledger.recordOf_cancel, none_struck, List.map_id]

/-- What concerns timers concerns the same executions under the new names. -/
theorem concerns_timer (mirrors : Mirrors rename name left right) (concerned : String → Bool)
    {run renamed : Run} (isRenamed : renamed ∈ run.rename? rename) :
    (run.owner == .timer && concerned run.name) =
      (renamed.owner == .timer && concerned renamed.name) := by
  rcases Option.map_eq_some_iff.mp isRenamed with ⟨owner, isOwner, rfl⟩
  have sameOwner : (run.owner == .timer) = (owner == .timer) := by
    rw [Bool.eq_iff_iff, beq_iff_eq, beq_iff_eq, ← mirrors.timer, isOwner, Option.some_inj]
  rw [sameOwner]
  rfl

/-- An execution of a timer is on record under its own name. -/
theorem filterMap_ofTimer (mirrors : Mirrors rename name left right) {runs : List Run}
    (ofTimer : ∀ run ∈ runs, run.owner = .timer) : runs.filterMap (·.rename? rename) = runs := by
  have same : ∀ run ∈ runs, run.rename? rename = some run := by
    intro run run_mem
    have owned := ofTimer run run_mem
    rw [Run.rename?, owned, (mirrors.timer .timer).mpr rfl, ← owned]
    rfl
  rw [List.filterMap_congr same, List.filterMap_some]

theorem launch (mirrors : Mirrors rename name left right) (options : Options) (probe : Probe) :
    Mirrors rename name (left.launch options probe) (right.launch options probe) where
  timer := mirrors.timer
  now := by
    rw [Scheduler.now, Scheduler.now, ledger_launch, ledger_launch]
    exact mirrors.now
  issued := by
    rw [ledger_launch, ledger_launch, Ledger.issued_cancel, Ledger.issued_cancel,
      Ledger.count_issued_issue, Ledger.count_issued_issue, mirrors.issued]
  timers := by
    rw [timersOf_launch, timersOf_launch]
    split
    · next same =>
        subst same
        simp only [Ledger.registration, mirrors.issued, mirrors.now]
    · exact mirrors.timers
  cached := by rw [cached_launch, cached_launch, mirrors.cached]
  record := by
    rw [ledger_launch, ledger_launch]
    exact mirrors.record_cancel fun _ _ _ isRenamed =>
      mirrors.concerns_timer (· == options.name) isRenamed

theorem launch_left (mirrors : Mirrors rename name left right) {options : Options}
    (unlike : options.name ≠ name) (probe : Probe) :
    Mirrors rename name (left.launch options probe) right where
  timer := mirrors.timer
  now := by
    rw [Scheduler.now, ledger_launch]
    exact mirrors.now
  issued := by
    rw [ledger_launch, Ledger.issued_cancel, Ledger.count_issued_issue, if_neg (Ne.symm unlike)]
    exact mirrors.issued
  timers := by
    rw [timersOf_launch, if_neg (Ne.symm unlike)]
    exact mirrors.timers
  cached := by
    rw [cached_launch, if_neg fun both => unlike both.1.symm]
    exact mirrors.cached
  record := by
    rw [ledger_launch]
    exact mirrors.record_cancel_left fun _ run_mem _ _ =>
      Ledger.unconcerned_of_mem_recordOf run_mem unlike

theorem stop (mirrors : Mirrors rename name left right) (other : String) :
    Mirrors rename name (left.stop other) (right.stop other) where
  timer := mirrors.timer
  now := mirrors.now
  issued := mirrors.issued
  timers := by rw [timersOf_stop, timersOf_stop, mirrors.timers]
  cached := by rw [cached_stop, cached_stop, mirrors.cached]
  record := mirrors.record_cancel fun _ _ _ isRenamed =>
    mirrors.concerns_timer (· == other) isRenamed

theorem stop_left (mirrors : Mirrors rename name left right) {other : String}
    (unlike : other ≠ name) : Mirrors rename name (left.stop other) right where
  timer := mirrors.timer
  now := mirrors.now
  issued := mirrors.issued
  timers := by
    rw [timersOf_stop, if_neg (Ne.symm unlike)]
    exact mirrors.timers
  cached := by
    rw [cached_stop, if_neg (Ne.symm unlike)]
    exact mirrors.cached
  record := by
    rw [ledger_stop]
    exact mirrors.record_cancel_left fun _ run_mem _ _ =>
      Ledger.unconcerned_of_mem_recordOf run_mem unlike

theorem stopAll (mirrors : Mirrors rename name left right) :
    Mirrors rename name left.stopAll right.stopAll where
  timer := mirrors.timer
  now := mirrors.now
  issued := mirrors.issued
  timers := rfl
  cached := rfl
  record := by
    rw [ledger_stopAll, ledger_stopAll]
    apply mirrors.record_cancel
    intro run _ renamed isRenamed
    simpa using mirrors.concerns_timer (fun _ => true) isRenamed

/-- What is done to the record alone is compared on the record. -/
theorem of_record (mirrors : Mirrors rename name left right) {ledger ledger' : Ledger}
    (now : ledger.now = left.ledger.now) (issued : ledger.issued = left.ledger.issued)
    (now' : ledger'.now = right.ledger.now) (issued' : ledger'.issued = right.ledger.issued)
    (record : (ledger.recordOf name).filterMap (·.rename? rename) = ledger'.recordOf name) :
    Mirrors rename name { left with ledger := ledger } { right with ledger := ledger' } where
  timer := mirrors.timer
  now := now.trans (mirrors.now.trans now'.symm)
  issued := by rw [issued, issued', mirrors.issued]
  timers := mirrors.timers
  cached := mirrors.cached
  record := record

theorem recorded (mirrors : Mirrors rename name left right) {runs runs' : List Run}
    (same : (runs.filter (·.name == name)).filterMap (·.rename? rename) =
      runs'.filter (·.name == name)) :
    Mirrors rename name { left with ledger := left.ledger.record runs }
      { right with ledger := right.ledger.record runs' } := by
  refine mirrors.of_record rfl rfl rfl rfl ?_
  rw [Ledger.recordOf_record, Ledger.recordOf_record, List.filterMap_append, mirrors.record, same]

theorem recorded_left (mirrors : Mirrors rename name left right) {runs : List Run}
    (nothing : (runs.filter (·.name == name)).filterMap (·.rename? rename) = []) :
    Mirrors rename name { left with ledger := left.ledger.record runs } right := by
  refine mirrors.of_record rfl rfl rfl rfl ?_
  rw [Ledger.recordOf_record, List.filterMap_append, mirrors.record, nothing, List.append_nil]

theorem cancelled (mirrors : Mirrors rename name left right) {concerns concerns' : Run → Bool}
    (agree : ∀ run ∈ left.ledger.recordOf name, ∀ renamed ∈ run.rename? rename,
      concerns run = concerns' renamed) :
    Mirrors rename name { left with ledger := left.ledger.cancel concerns }
      { right with ledger := right.ledger.cancel concerns' } :=
  mirrors.of_record rfl rfl rfl rfl (mirrors.record_cancel agree)

theorem cancelled_left (mirrors : Mirrors rename name left right) {concerns : Run → Bool}
    (foreign : ∀ run ∈ left.ledger.recordOf name, ∀ renamed ∈ run.rename? rename,
      concerns run = false) :
    Mirrors rename name { left with ledger := left.ledger.cancel concerns } right :=
  mirrors.of_record rfl rfl rfl rfl (mirrors.record_cancel_left foreign)

/-- Time passes on both sides, and the timers of the name go through the same courses. -/
theorem follow (mirrors : Mirrors rename name left right) {courseOf other : Timer → Timer.Course}
    (isOf : ∀ timer, (courseOf timer).IsOf timer) (isOf' : ∀ timer, (other timer).IsOf timer)
    (same : ∀ timer ∈ left.timersOf name, courseOf timer = other timer) (horizon : Nat) :
    Mirrors rename name (left.follow horizon courseOf) (right.follow horizon other) where
  timer := mirrors.timer
  now := rfl
  issued := mirrors.issued
  timers := by
    rw [timersOf_follow isOf, timersOf_follow isOf', ← mirrors.timers]
    apply List.map_congr_left
    intro timer timer_mem
    rw [same timer timer_mem]
  cached := by
    rw [cached_follow, cached_follow, mirrors.cached, last?_deliveriesOf, last?_deliveriesOf,
      ← mirrors.timers]
    congr 3
    apply List.flatMap_congr
    intro timer timer_mem
    rw [same timer timer_mem]
  record := by
    have sameRuns : (left.timersOf name).flatMap (fun timer => runsOf timer (other timer)) =
        (left.timersOf name).flatMap fun timer => runsOf timer (courseOf timer) := by
      apply List.flatMap_congr
      intro timer timer_mem
      rw [same timer timer_mem]
    rw [recordOf_follow isOf, recordOf_follow isOf', List.filterMap_append, mirrors.record,
      ← mirrors.timers, sameRuns, mirrors.filterMap_ofTimer]
    intro run run_mem
    rcases List.mem_flatMap.mp run_mem with ⟨timer, _, started⟩
    rcases List.mem_map.mp started with ⟨tick, _, rfl⟩
    rfl

theorem pass (mirrors : Mirrors rename name left right) (inStep : InStep name left right)
    (milliseconds : Nat) {turns turns' : String → Nat} (same : turns name = turns' name) :
    Mirrors rename name (left.pass milliseconds turns) (right.pass milliseconds turns') := by
  rw [Scheduler.pass, Scheduler.pass, ← mirrors.now]
  apply mirrors.follow
  · exact fun timer => Timer.Course.isOf_proceed _ _ _ timer
  · exact fun timer => Timer.Course.isOf_proceed _ _ _ timer
  · intro timer timer_mem
    rw [courseWithin, courseWithin, name_of_mem_timersOf timer_mem, same]
    have sameCourse := inStep timer timer_mem (left.now + milliseconds) (turns' name)
    rw [name_of_mem_timersOf timer_mem] at sameCourse
    exact sameCourse

theorem advance (mirrors : Mirrors rename name left right) (inStep : InStep name left right)
    (milliseconds : Nat) :
    Mirrors rename name (left.advance milliseconds) (right.advance milliseconds) := by
  rw [Scheduler.advance, Scheduler.advance, ← mirrors.now]
  apply mirrors.follow (left.isOf_course _) (right.isOf_course _)
  intro timer timer_mem
  rw [course, course, ← Timer.proceed_eq_advance (Nat.le_refl _),
    ← Timer.proceed_eq_advance (Nat.le_refl _)]
  exact inStep timer timer_mem _ _

/-- Where everybody has a new name, the timers find the same calls on record. -/
theorem inStep (mirrors : Mirrors rename name left right)
    (known : ∀ run ∈ left.ledger.recordOf name, (rename run.owner).isSome = true) :
    InStep name left right := by
  intro timer timer_mem horizon turns
  rw [name_of_mem_timersOf timer_mem, mirrors.callsStarted known]

end Mirrors

end Scheduler

end Vitals
