import Mathlib.Data.ENat.Lattice
import Vitals.Execution.Race

/-!
# What the race of a call and its timeout comes to

An execution says in advance when it ends and with which result. A race gets there event by event:
unless the call ends at the very instant of its timeout, every race ends at that instant, and with
that result. `Stage` lists what a race can have come to; no event leads out of the list. So nobody
who waits is ever told that a call was cancelled, for a task is stopped by its own waiter only.
-/

namespace Vitals

/-- How long a call takes when nobody stops it. -/
def Behaviour.delay : Behaviour → ℕ∞
  | .ends delay _ => delay
  | .hangs => ⊤

namespace Execution

variable {execution : Execution} {delay : Nat} {outcome : Outcome}

theorem outcome?_eq_some_iff :
    execution.outcome? = some (delay, outcome) ↔
      execution.behaviour = .ends delay outcome ∧ delay < execution.options.timeout := by
  unfold outcome?
  cases execution.behaviour with
  | hangs => simp
  | ends own other =>
      by_cases inTime : own < execution.options.timeout
      · simp only [inTime, if_true, Option.some.injEq, Prod.mk.injEq, Behaviour.ends.injEq]
        constructor
        · rintro ⟨rfl, rfl⟩
          exact ⟨⟨rfl, rfl⟩, inTime⟩
        · exact And.left
      · simp only [inTime, if_false, reduceCtorEq, Behaviour.ends.injEq, false_iff]
        rintro ⟨⟨rfl, rfl⟩, early⟩
        exact inTime early

theorem outcome?_eq_none_iff :
    execution.outcome? = none ↔ (execution.options.timeout : ℕ∞) ≤ execution.behaviour.delay := by
  unfold outcome? Behaviour.delay
  cases execution.behaviour with
  | hangs => simp
  | ends own other => simp

theorem elapsed_of_outcome (ends : execution.outcome? = some (delay, outcome)) :
    execution.elapsed = delay := by
  rw [elapsed, ends]

theorem elapsed_of_endless (endless : execution.outcome? = none) :
    execution.elapsed = execution.options.timeout := by
  rw [elapsed, endless]

/-- An execution takes as long as its call, the timeout at most. -/
theorem elapsed_eq_min (execution : Execution) :
    (execution.elapsed : ℕ∞) = min execution.behaviour.delay execution.options.timeout := by
  cases ends : execution.outcome? with
  | none =>
      rw [elapsed_of_endless ends, min_eq_right (outcome?_eq_none_iff.mp ends)]
  | some ending =>
      rcases outcome?_eq_some_iff.mp ends with ⟨behaves, inTime⟩
      rw [elapsed_of_outcome ends, behaves, Behaviour.delay, min_eq_left]
      exact Nat.cast_le.mpr (Nat.le_of_lt inTime)

theorem result_of_outcome (ends : execution.outcome? = some (delay, outcome)) :
    execution.result =
      { conclude execution.options.name delay outcome with
        timestamp := .ofClock execution.endsAt } := by
  rw [result, ends]

theorem result_of_endless (endless : execution.outcome? = none) :
    execution.result =
      { timedOut execution.options.name execution.options.timeout with
        timestamp := .ofClock execution.endsAt } := by
  rw [result, endless]

/-- What the result of an execution says about its call. -/
inductive Tells (execution : Execution) : Status → Option String → Option Entries → Prop where
  /-- A result is passed on; the name and the time that it claims are not. -/
  | returned {delay : Nat} {own : Result}
      (behaves : execution.behaviour = .ends delay (.returned own))
      (inTime : delay < execution.options.timeout) :
      Tells execution own.status own.message own.details
  /-- Of an error the outermost text counts. -/
  | failed {delay : Nat} {message : String} {causes : List String}
      (behaves : execution.behaviour = .ends delay (.failed message causes))
      (inTime : delay < execution.options.timeout) :
      Tells execution .unhealthy (some message) none
  | panicked {delay : Nat} {text : Option String}
      (behaves : execution.behaviour = .ends delay (.panicked text))
      (inTime : delay < execution.options.timeout) :
      Tells execution .unhealthy
        (some ("probe '" ++ execution.options.name ++ "' panicked: " ++
          text.getD "unknown panic")) none
  | late (late : (execution.options.timeout : ℕ∞) ≤ execution.behaviour.delay) :
      Tells execution .unhealthy
        (some ("probe '" ++ execution.options.name ++ "' timed out after " ++
          toString execution.options.timeout ++ "ms")) none

theorem tells_result (execution : Execution) :
    execution.Tells execution.result.status execution.result.message execution.result.details := by
  cases ends : execution.outcome? with
  | none =>
      rw [result_of_endless ends]
      exact .late (outcome?_eq_none_iff.mp ends)
  | some ending =>
      rcases ending with ⟨delay, outcome⟩
      rcases outcome?_eq_some_iff.mp ends with ⟨behaves, inTime⟩
      rw [result_of_outcome ends]
      cases outcome with
      | returned own =>
          have said : execution.Tells own.status own.message own.details := .returned behaves inTime
          exact said
      | failed message causes => exact .failed behaves inTime
      | panicked text => exact .panicked behaves inTime

/-- Two messages about a probe differ if what they say of it does. -/
theorem message_ne (name : String) {left right : String} (differ : left ≠ right) :
    "probe '" ++ name ++ left ≠ "probe '" ++ name ++ right := by
  intro same
  apply differ
  rw [← String.toList_inj] at same ⊢
  simpa only [String.toList_append, List.append_cancel_left_eq] using same

/-- Only a probe itself can say that it was cancelled: with a result or an error of its own. -/
theorem tells_cancelled {status : Status} {message : Option String} {details : Option Entries}
    (tells : execution.Tells status message details)
    (cancelled : message = some (cancelledMessage execution.options.name)) :
    ∃ delay, (∃ own, execution.behaviour = .ends delay (.returned own) ∧ own.message = message) ∨
      ∃ text causes, execution.behaviour = .ends delay (.failed text causes) ∧
        some text = message := by
  cases tells with
  | @returned delay own behaves inTime => exact ⟨delay, Or.inl ⟨own, behaves, rfl⟩⟩
  | @failed delay text causes behaves inTime => exact ⟨delay, Or.inr ⟨text, causes, behaves, rfl⟩⟩
  | panicked behaves inTime =>
      rw [String.append_assoc] at cancelled
      refine absurd (Option.some.inj cancelled) (message_ne _ ?_)
      intro same
      have letters := congrArg (fun text => text.toList[2]?) same
      simp at letters
  | late late =>
      rw [String.append_assoc, String.append_assoc] at cancelled
      refine absurd (Option.some.inj cancelled) (message_ne _ ?_)
      intro same
      have letters := congrArg (fun text => text.toList[2]?) same
      simp at letters

end Execution

namespace Race

/-- A race of an execution whose timeout strikes when it is over. -/
abbrev timely (execution : Execution) (now : Nat) (task : Task) (waiter : Waiter) : Race :=
  ⟨execution, execution.options.timeout, now, task, waiter⟩

theorem start_of_punctual {execution : Execution} {alarm : Alarm}
    (punctual : alarm.Punctual execution.startedAt execution.options.timeout) :
    start alarm execution = timely execution execution.startedAt .running .waiting := by
  rw [start, punctual.eq]

/-- What the race of an execution can have come to if its timer is punctual. -/
inductive Stage (execution : Execution) : Race → Prop where
  | running {now : Nat} (started : execution.startedAt ≤ now) (inTime : now ≤ execution.endsAt) :
      Stage execution (timely execution now .running .waiting)
  | ended {outcome : Outcome} (ends : execution.outcome? = some (execution.elapsed, outcome)) :
      Stage execution (timely execution execution.endsAt (.ended outcome) .waiting)
  | told {now : Nat} {outcome : Outcome} (reached : execution.endsAt ≤ now)
      (ends : execution.outcome? = some (execution.elapsed, outcome)) :
      Stage execution
        (timely execution now (.ended outcome) (.answered execution.endsAt execution.result))
  | expired {now : Nat} (reached : execution.endsAt ≤ now) (endless : execution.outcome? = none) :
      Stage execution
        (timely execution now .stopped (.answered execution.endsAt execution.result))
  | stopped {now : Nat} : Stage execution (timely execution now .stopped .gone)
  | left {now : Nat} {outcome : Outcome}
      (ends : execution.outcome? = some (execution.elapsed, outcome)) :
      Stage execution (timely execution now (.ended outcome) .gone)

variable {execution : Execution} {race next : Race} {event : Event}

/-- What each event needs, and what it does. -/
inductive Happens (race : Race) : Event → Race → Prop where
  | finish {delay : Nat} {outcome : Outcome} (runs : race.task = .running)
      (behaves : race.execution.behaviour = .ends delay outcome) (reached : delay ≤ race.elapsed) :
      Happens race .finish { race with task := .ended outcome }
  | collect {result : Result} (waits : race.waiter = .waiting) (told : race.told? = some result) :
      Happens race .collect (race.answer result)
  | expire (waits : race.waiter = .waiting) (runs : race.task = .running)
      (due : race.patience ≤ race.elapsed) :
      Happens race .expire
        (race.answer
          (Execution.timedOut race.execution.options.name race.execution.options.timeout))
  | abandon (waits : race.waiter = .waiting) :
      Happens race .abandon { race with task := race.task.released, waiter := .gone }
  | tick (unfinished : race.finish? = none) (untold : race.collect? = none)
      (unexpired : race.expire? = none) : Happens race .tick { race with now := race.now + 1 }

theorem happens_of_step (happens : race.step event = some next) : Happens race event next := by
  cases event with
  | finish =>
      rw [step, finish?] at happens
      split at happens
      · next runs behaves =>
          simp only [Option.ite_none_right_eq_some, Option.some.injEq] at happens
          rcases happens with ⟨reached, rfl⟩
          exact .finish runs behaves reached
      · cases happens
  | collect =>
      rw [step, collect?] at happens
      split at happens
      · next waits =>
          rcases Option.map_eq_some_iff.mp happens with ⟨result, told, rfl⟩
          exact .collect waits told
      · cases happens
  | expire =>
      rw [step, expire?] at happens
      split at happens
      · next waits runs =>
          simp only [Option.ite_none_right_eq_some, Option.some.injEq] at happens
          rcases happens with ⟨due, rfl⟩
          exact .expire waits runs due
      · cases happens
  | abandon =>
      rw [step, abandon?] at happens
      split at happens
      · next waits =>
          cases happens
          exact .abandon waits
      · cases happens
  | tick =>
      simp only [step, tick?, Option.ite_none_right_eq_some, Option.some.injEq,
        Option.isNone_iff_eq_none] at happens
      rcases happens with ⟨⟨unfinished, untold, unexpired⟩, rfl⟩
      exact .tick unfinished untold unexpired

/-- When nobody waits and no call runs, only time passes. -/
theorem Happens.eq_of_settled (happens : Happens race event next)
    (unwaited : race.waiter ≠ .waiting) (idle : race.task ≠ .running) :
    next = { race with now := race.now + 1 } := by
  cases happens with
  | finish runs behaves reached => exact absurd runs idle
  | tick unfinished untold unexpired => rfl
  | _ waits => exact absurd waits unwaited

/-- A call that comes to its end does so just now, and before the timeout. -/
theorem ending_of_finish {delay now : Nat} {outcome : Outcome}
    (untied : execution.behaviour.delay ≠ execution.options.timeout)
    (behaves : execution.behaviour = .ends delay outcome) (started : execution.startedAt ≤ now)
    (inTime : now ≤ execution.endsAt) (reached : delay ≤ now - execution.startedAt) :
    execution.outcome? = some (execution.elapsed, outcome) ∧ now = execution.endsAt := by
  have unlike : delay ≠ execution.options.timeout := by
    rintro rfl
    exact untied (by rw [behaves, Behaviour.delay])
  have early : delay < execution.options.timeout := by
    by_contra late
    have endless : execution.outcome? = none := by
      rw [Execution.outcome?_eq_none_iff, behaves]
      exact Nat.cast_le.mpr (Nat.le_of_not_lt late)
    rw [Execution.endsAt, Execution.elapsed_of_endless endless] at inTime
    omega
  have ends := Execution.outcome?_eq_some_iff.mpr ⟨behaves, early⟩
  rw [Execution.endsAt, Execution.elapsed_of_outcome ends] at *
  exact ⟨ends, by omega⟩

/-- A timeout that strikes does so just now, and at a call that does not end before it. -/
theorem endless_of_expire {now : Nat} (started : execution.startedAt ≤ now)
    (inTime : now ≤ execution.endsAt)
    (due : execution.options.timeout ≤ now - execution.startedAt) :
    execution.outcome? = none ∧ now = execution.endsAt := by
  have endless : execution.outcome? = none := by
    rw [Option.eq_none_iff_forall_ne_some]
    rintro ⟨delay, outcome⟩ ends
    have early := (Execution.outcome?_eq_some_iff.mp ends).2
    rw [Execution.endsAt, Execution.elapsed_of_outcome ends] at inTime
    omega
  rw [Execution.endsAt, Execution.elapsed_of_endless endless] at *
  exact ⟨endless, by omega⟩

/-- When an execution is to end, its call comes to its end or its timeout strikes. So the clock
stands still until it has ended. -/
theorem busy_at_end (execution : Execution) :
    let race := timely execution execution.endsAt .running .waiting
    race.finish? ≠ none ∨ race.expire? ≠ none := by
  have elapsed : execution.endsAt - execution.startedAt = execution.elapsed :=
    Nat.add_sub_cancel_left _ _
  cases ends : execution.outcome? with
  | none => simp [expire?, Race.elapsed, elapsed, Execution.elapsed_of_endless ends]
  | some ending =>
      have behaves := (Execution.outcome?_eq_some_iff.mp ends).1
      simp [finish?, Race.elapsed, elapsed, Execution.elapsed_of_outcome ends, behaves]

/-- How many events there can be until the waiter has its answer: it takes one of them to bring the
call to its end, and one to tell it. -/
def toGo (race : Race) : Nat :=
  match race.waiter, race.task with
  | .waiting, .running => race.execution.endsAt - race.now + 2
  | .waiting, _ => 1
  | _, _ => 0

namespace Stage

theorem of_start {alarm : Alarm}
    (punctual : alarm.Punctual execution.startedAt execution.options.timeout) :
    Stage execution (.start alarm execution) := by
  rw [start_of_punctual punctual]
  exact .running (Nat.le_refl _) (Nat.le_add_right _ _)

/-- No event leads out of the stages, and each one brings the answer nearer. -/
theorem step (untied : execution.behaviour.delay ≠ execution.options.timeout)
    (stage : Stage execution race) (happens : Happens race event next) :
    Stage execution next ∧ next.toGo ≤ race.toGo - 1 := by
  cases stage with
  | @running now started inTime =>
      cases happens with
      | finish runs behaves reached =>
          rcases ending_of_finish untied behaves started inTime reached with ⟨ends, rfl⟩
          exact ⟨.ended ends, Nat.le_add_left _ _⟩
      | collect waits told => cases told
      | expire waits runs due =>
          rcases endless_of_expire started inTime due with ⟨endless, rfl⟩
          rw [answer, ← Execution.result_of_endless endless]
          exact ⟨.expired (Nat.le_refl _) endless, Nat.zero_le _⟩
      | abandon waits => exact ⟨.stopped, Nat.zero_le _⟩
      | tick unfinished untold unexpired =>
          have before : now ≠ execution.endsAt := by
            rintro rfl
            rcases busy_at_end execution with finishes | expires
            · exact finishes unfinished
            · exact expires unexpired
          have later : now + 1 ≤ execution.endsAt := Nat.lt_of_le_of_ne inTime before
          refine ⟨.running (Nat.le_succ_of_le started) later, ?_⟩
          simp only [toGo]
          omega
  | @ended outcome ends =>
      have elapsed : execution.endsAt - execution.startedAt = execution.elapsed :=
        Nat.add_sub_cancel_left _ _
      cases happens with
      | finish runs behaves reached => cases runs
      | collect waits told =>
          cases told
          rw [answer, Race.elapsed, elapsed, ← Execution.result_of_outcome ends]
          exact ⟨.told (Nat.le_refl _) ends, Nat.zero_le _⟩
      | expire waits runs due => cases runs
      | abandon waits => exact ⟨.left ends, Nat.zero_le _⟩
      | tick unfinished untold unexpired => cases untold
  | told reached ends =>
      rw [happens.eq_of_settled Waiter.noConfusion Task.noConfusion]
      exact ⟨.told (Nat.le_succ_of_le reached) ends, Nat.zero_le _⟩
  | expired reached endless =>
      rw [happens.eq_of_settled Waiter.noConfusion Task.noConfusion]
      exact ⟨.expired (Nat.le_succ_of_le reached) endless, Nat.zero_le _⟩
  | stopped =>
      rw [happens.eq_of_settled Waiter.noConfusion Task.noConfusion]
      exact ⟨.stopped, Nat.zero_le _⟩
  | left ends =>
      rw [happens.eq_of_settled Waiter.noConfusion Task.noConfusion]
      exact ⟨.left ends, Nat.zero_le _⟩

theorem run (untied : execution.behaviour.delay ≠ execution.options.timeout)
    (stage : Stage execution race) {events : List Event} (happen : race.run events = some next) :
    Stage execution next ∧ next.toGo ≤ race.toGo - events.length := by
  induction events generalizing race with
  | nil =>
      cases happen
      exact ⟨stage, Nat.le_refl _⟩
  | cons event rest ih =>
      rcases Option.bind_eq_some_iff.mp happen with ⟨middle, happens, later⟩
      rcases stage.step untied (happens_of_step happens) with ⟨middle_stage, nearer⟩
      rcases ih middle_stage later with ⟨next_stage, near⟩
      refine ⟨next_stage, ?_⟩
      rw [List.length_cons]
      omega

/-- Who has an answer has the right one, and has it since the execution has ended. -/
theorem answered (stage : Stage execution race) {instant : Nat} {result : Result}
    (answered : race.waiter = .answered instant result) :
    instant = execution.endsAt ∧ result = execution.result := by
  cases stage with
  | told reached ends =>
      cases answered
      exact ⟨rfl, rfl⟩
  | expired reached endless =>
      cases answered
      exact ⟨rfl, rfl⟩
  | _ => cases answered

/-- A task that has an outcome belongs to a call that ends before its timeout. -/
theorem completes (stage : Stage execution race) {outcome : Outcome}
    (ended : race.task = .ended outcome) :
    execution.behaviour = .ends execution.elapsed outcome ∧
      execution.elapsed < execution.options.timeout := by
  cases stage with
  | ended ends =>
      cases ended
      exact Execution.outcome?_eq_some_iff.mp ends
  | told reached ends =>
      cases ended
      exact Execution.outcome?_eq_some_iff.mp ends
  | left ends =>
      cases ended
      exact Execution.outcome?_eq_some_iff.mp ends
  | _ => cases ended

/-- Whoever waits, waits for a task that nobody has stopped. -/
theorem not_stopped (stage : Stage execution race) (waits : race.waiter = .waiting) :
    race.task ≠ .stopped := by
  cases stage with
  | running started inTime => exact Task.noConfusion
  | ended ends => exact Task.noConfusion
  | _ => cases waits

end Stage

/-- Nobody is given up unless it is asked for. -/
theorem not_gone {events : List Event} (kept : .abandon ∉ events) (waits : race.waiter ≠ .gone)
    (happen : race.run events = some next) : next.waiter ≠ .gone := by
  induction events generalizing race with
  | nil =>
      cases happen
      exact waits
  | cons event rest ih =>
      rcases Option.bind_eq_some_iff.mp happen with ⟨middle, happens, later⟩
      rw [List.mem_cons, not_or] at kept
      refine ih kept.2 ?_ later
      cases happens_of_step happens with
      | finish runs behaves reached => exact waits
      | collect waiting told => exact Waiter.noConfusion
      | expire waiting runs due => exact Waiter.noConfusion
      | abandon waiting => exact absurd rfl kept.1
      | tick unfinished untold unexpired => exact waits

/-- Something can always happen, if only that time passes. -/
theorem exists_step (race : Race) :
    ∃ event next, event ≠ .abandon ∧ race.step event = some next := by
  cases finishes : race.finish? with
  | some next => exact ⟨.finish, next, by simp, finishes⟩
  | none =>
      cases tells : race.collect? with
      | some next => exact ⟨.collect, next, by simp, tells⟩
      | none =>
          cases expires : race.expire? with
          | some next => exact ⟨.expire, next, by simp, expires⟩
          | none =>
              refine ⟨.tick, { race with now := race.now + 1 }, by simp, ?_⟩
              simp [step, tick?, finishes, tells, expires]

theorem answered_of_toGo (stage : Stage execution race) (unleft : race.waiter ≠ .gone)
    (near : race.toGo = 0) : race.waiter = .answered execution.endsAt execution.result := by
  cases stage with
  | running started inTime => cases near
  | ended ends => cases near
  | told reached ends => rfl
  | expired reached endless => rfl
  | _ => exact absurd rfl unleft

/-- Who is not given up has an answer as soon as enough has happened. -/
theorem answered_of_long {alarm : Alarm} {events : List Event}
    (punctual : alarm.Punctual execution.startedAt execution.options.timeout)
    (untied : execution.behaviour.delay ≠ execution.options.timeout) (kept : .abandon ∉ events)
    (happen : (start alarm execution).run events = some race)
    (many : execution.elapsed + 2 ≤ events.length) :
    race.waiter = .answered execution.endsAt execution.result := by
  rcases (Stage.of_start punctual).run untied happen with ⟨stage, near⟩
  apply answered_of_toGo stage (not_gone kept Waiter.noConfusion happen)
  have start : (start alarm execution).toGo = execution.elapsed + 2 := by
    rw [toGo, Race.start, Execution.endsAt]
    simp
  omega

/-- The contract of an execution whose timeout strikes when it is over. Unless its call ends at the
very instant of its timeout, whatever happens in the race of the two, in whatever order: the waiter
has an answer after the shorter of the two times, neither earlier nor later, and the answer is the
result of the execution. The result has the registered name and the measured time, and it tells what
a call has come to that ended in time, or else that it was late. A late call has no outcome, and
what it would have come to makes no difference. That a call was cancelled is told by nobody but the
probe itself. -/
theorem answer_of_race (alarm : Alarm) (execution : Execution)
    (punctual : alarm.Punctual execution.startedAt execution.options.timeout)
    (untied : execution.behaviour.delay ≠ execution.options.timeout) :
    let options := execution.options
    let result := execution.result
    let endsAt := execution.startedAt + execution.elapsed
    (execution.elapsed : ℕ∞) = min execution.behaviour.delay options.timeout ∧
    (∀ events race, (Race.start alarm execution).run events = some race →
      (∀ instant told, race.waiter = .answered instant told → instant = endsAt ∧ told = result) ∧
      (race.waiter = .waiting → race.task ≠ .stopped) ∧
      (∀ outcome, race.task = .ended outcome →
        execution.behaviour = .ends execution.elapsed outcome ∧
          execution.elapsed < options.timeout) ∧
      (∃ event next, event ≠ .abandon ∧ race.step event = some next) ∧
      (.abandon ∉ events → execution.elapsed + 2 ≤ events.length →
        race.waiter = .answered endsAt result)) ∧
    result.name = options.name ∧
    result.duration = .ofMillis execution.elapsed ∧
    execution.Tells result.status result.message result.details ∧
    (result.message = some (Execution.cancelledMessage options.name) →
      ∃ delay, (∃ own, execution.behaviour = .ends delay (.returned own) ∧
          own.message = result.message) ∨
        ∃ text causes, execution.behaviour = .ends delay (.failed text causes) ∧
          some text = result.message) ∧
    ((options.timeout : ℕ∞) < execution.behaviour.delay →
      ∀ other : Behaviour, (options.timeout : ℕ∞) < other.delay →
        ({ execution with behaviour := other } : Execution).result = result) := by
  intro options result endsAt
  have tells : execution.Tells result.status result.message result.details :=
    execution.tells_result
  refine ⟨execution.elapsed_eq_min, ?_, Execution.name_result _, Execution.duration_result _, tells,
    Execution.tells_cancelled tells, ?_⟩
  · intro events race happen
    rcases (Stage.of_start punctual).run untied happen with ⟨stage, near⟩
    refine ⟨fun instant told => stage.answered, stage.not_stopped, fun outcome => stage.completes,
      race.exists_step, ?_⟩
    intro kept many
    exact answered_of_long punctual untied kept happen many
  · intro late other otherLate
    have endless := Execution.outcome?_eq_none_iff.mpr (le_of_lt late)
    have otherEndless : ({ execution with behaviour := other } : Execution).outcome? = none :=
      Execution.outcome?_eq_none_iff.mpr (le_of_lt otherLate)
    rw [Execution.result_of_endless otherEndless]
    simp only [result, Execution.result_of_endless endless, Execution.endsAt,
      Execution.elapsed_of_endless endless, Execution.elapsed_of_endless otherEndless]

theorem answer_of_late_call :
    let execution : Execution :=
      ⟨⟨"db", 2, true, none⟩, .ends 5 (.returned (.healthy "cache")), 10⟩
    Alarm.ofClock.Punctual execution.startedAt execution.options.timeout ∧
    execution.behaviour.delay ≠ execution.options.timeout ∧
    ∃ race, (start .ofClock execution).run [.tick, .tick, .expire, .tick] = some race ∧
      race.waiter = .answered 12 execution.result ∧ execution.result.name = "db" := by
  intro execution
  have punctual : Alarm.ofClock.Punctual execution.startedAt execution.options.timeout :=
    Alarm.punctual_ofClock (by decide)
  have untied : execution.behaviour.delay ≠ execution.options.timeout :=
    Nat.cast_injective.ne (by decide)
  have contract := answer_of_race .ofClock execution punctual untied
  have runs :
      ∃ race, (start .ofClock execution).run [.tick, .tick, .expire, .tick] = some race := by
    rw [start_of_punctual punctual]
    exact ⟨_, rfl⟩
  rcases runs with ⟨race, happen⟩
  have outcome := contract.2.1 [.tick, .tick, .expire, .tick] race happen
  exact ⟨punctual, untied, race, happen, outcome.2.2.2.2 (by decide) (by decide), contract.2.2.1⟩

-- Where call and timeout end at the same instant, either can win.
example :
    let execution : Execution :=
      ⟨⟨"db", 1, true, none⟩, .ends 1 (.returned (.healthy "db")), 0⟩
    ((start .ofClock execution).run [.tick, .finish, .collect]).isSome = true ∧
      ((start .ofClock execution).run [.tick, .expire]).isSome = true := by
  decide

end Race

end Vitals
