import Vitals.Proofs.Polling.Pace

/-!
# Calls under way

The executions under way on record, told by what does not change about them: their charges. What
cancelling, recording and the passing of time do to them, and which of them a timer and an inquiry
wait for: those that they started and that are not over.
-/

namespace Vitals

namespace Ledger

variable (ledger : Ledger)

/-- The executions under way. -/
def inFlight : List Run := ledger.runs.filter (·.isOpen ledger.now)

theorem inFlight_cancel (concerns : Run → Bool) :
    (ledger.cancel concerns).inFlight = ledger.inFlight.filter (!concerns ·) := by
  simp only [inFlight, runs_cancel, List.filter_filter]
  have sameNow : (ledger.cancel concerns).now = ledger.now := rfl
  rw [sameNow]
  induction ledger.runs with
  | nil => rfl
  | cons run rest ih =>
      rw [List.map_cons]
      cases concerned : concerns run with
      | true =>
          have closed := ledger.isOpen_strike concerns concerned
          rw [List.filter_cons_of_neg (by simp [closed]),
            List.filter_cons_of_neg (by simp [concerned]), ih]
      | false =>
          rw [ledger.strike_of_unconcerned concerns concerned, List.filter_cons, List.filter_cons,
            ih]
          simp [concerned]

theorem inFlight_record (runs : List Run) :
    (ledger.record runs).inFlight = ledger.inFlight ++ runs.filter (·.isOpen ledger.now) :=
  List.filter_append _ _

/-- Of what was under way, that which is not over yet is still under way. -/
theorem filter_isOpen_of_le {later : Nat} (le : ledger.now ≤ later) :
    ledger.runs.filter (·.isOpen later) =
      ledger.inFlight.filter fun run => later < run.execution.endsAt := by
  rw [inFlight, List.filter_filter]
  apply List.filter_congr
  intro run _
  cases cancelled : run.cancelledAt.isNone with
  | false => simp [Run.isOpen, cancelled]
  | true =>
      by_cases under : later < run.execution.endsAt
      · simp [Run.isOpen, cancelled, under, Nat.lt_of_le_of_lt le under]
      · simp [Run.isOpen, under]

end Ledger

/-- Keeps the charges that a property of runs picks out, if it is a property of their charges. -/
theorem Run.map_charge_filter {picks : Run → Bool} {keeps : Charge → Bool} {runs : List Run}
    (agree : ∀ run ∈ runs, picks run = keeps run.charge) :
    (runs.filter picks).map Run.charge = (runs.map Run.charge).filter keeps := by
  rw [List.filter_map, List.filter_congr agree]
  rfl

namespace Charge

/-- The execution is not over. -/
def lasts (now : Nat) (charge : Charge) : Bool := now < charge.execution.endsAt

/-- What is not over later is not over now. -/
theorem filter_lasts {now later : Nat} (le : now ≤ later) (charges : List Charge) :
    (charges.filter (·.lasts now)).filter (·.lasts later) = charges.filter (·.lasts later) := by
  rw [List.filter_filter]
  apply List.filter_congr
  intro charge _
  by_cases lasts : later < charge.execution.endsAt
  · simp [Charge.lasts, lasts, Nat.lt_of_le_of_lt le lasts]
  · simp [Charge.lasts, lasts]

end Charge

namespace Timer

variable {horizon now : Nat} {timer : Timer}

def charge (timer : Timer) (execution : Execution) : Charge :=
  ⟨.timer, timer.registration.serial, execution⟩

/-- The execution that a timer waits for, if it is under way. -/
def awaited (now : Nat) (timer : Timer) : List Charge :=
  (timer.running.toList.map timer.charge).filter (·.lasts now)

/-- What a timer starts in a course. -/
def begun (timer : Timer) (course : Course) : List Charge :=
  course.started.map fun tick => timer.charge tick.execution

/-- What a timer waits for was started by now, under the options of its registration. -/
def Minds (now : Nat) (timer : Timer) : Prop :=
  ∀ execution, timer.running = some execution →
    execution.options = timer.registration.options ∧ execution.startedAt ≤ now

theorem minds_proceed (minds : timer.Minds horizon) (turns calls : Nat) :
    (timer.proceed horizon turns calls).timer.Minds horizon := by
  induction turns generalizing timer calls with
  | zero => exact minds
  | succ turns ih =>
      unfold proceed
      split
      · next execution running =>
          split
          · apply ih
            intro other none
            cases none
          · exact minds
      · split
        · next ready =>
            apply ih
            rintro execution ⟨⟩
            exact ⟨rfl, ready.2⟩
        · exact minds

theorem filter_awaited (le : now ≤ horizon) :
    (timer.awaited now).filter (·.lasts horizon) = timer.awaited horizon :=
  Charge.filter_lasts le _

/-- Of all that a timer has had under way and has started since, it waits for what is not over. -/
theorem awaited_proceed (turns calls : Nat) :
    timer.awaited horizon ++
        (timer.begun (timer.proceed horizon turns calls)).filter (·.lasts horizon) =
      (timer.proceed horizon turns calls).timer.awaited horizon := by
  induction turns generalizing timer calls with
  | zero => simp [proceed, begun]
  | succ turns ih =>
      unfold proceed
      split
      · next execution running =>
          split
          · next finished =>
              -- An execution that is over is awaited neither before nor after its turn.
              have before : timer.awaited horizon = (timer.finish execution).awaited horizon := by
                simp [awaited, running, finish, Charge.lasts, charge, finished]
              rw [before]
              exact ih calls
          · simp [begun]
      · next idle =>
          split
          · have before : timer.awaited horizon = [] := by simp [awaited, idle]
            have rest := @ih (timer.begin calls)
              (if (timer.nextExecution calls).calls then calls + 1 else calls)
            rw [before, List.nil_append, ← rest]
            exact List.filter_append [timer.charge (timer.nextExecution calls)] _
          · simp [begun]

end Timer

namespace Inquiry

variable {now : Nat} {inquiry : Inquiry}

/-- The executions that an inquiry waits for: those that are not over. -/
def awaited (now : Nat) (inquiry : Inquiry) : List Charge :=
  (inquiry.runs.map Run.charge).filter (·.lasts now)

/-- What an inquiry waits for was started by now, for each name once at most and under the options
of a registration. -/
structure Minds (now : Nat) (inquiry : Inquiry) : Prop where
  names_nodup : (inquiry.entries.map (·.1.options.name)).Nodup
  started : ∀ entry ∈ inquiry.entries,
    entry.2.options = entry.1.options ∧ entry.2.startedAt ≤ now

theorem Minds.of_le {later : Nat} (minds : inquiry.Minds now) (le : now ≤ later) :
    inquiry.Minds later where
  names_nodup := minds.names_nodup
  started := fun entry entry_mem =>
    (minds.started entry entry_mem).imp_right fun started => Nat.le_trans started le

theorem mem_awaited {charge : Charge} (charge_mem : charge ∈ inquiry.awaited now) :
    ∃ entry ∈ inquiry.entries,
      charge = ⟨.inquiry inquiry.ticket, entry.1.serial, entry.2⟩ := by
  rw [awaited, runs, List.map_map] at charge_mem
  rcases List.mem_map.mp (List.mem_filter.mp charge_mem).1 with ⟨entry, entry_mem, rfl⟩
  exact ⟨entry, entry_mem, rfl⟩

theorem owner_of_mem_awaited {charge : Charge} (charge_mem : charge ∈ inquiry.awaited now) :
    charge.owner = .inquiry inquiry.ticket := by
  rcases mem_awaited charge_mem with ⟨entry, _, rfl⟩
  rfl

theorem nodup_awaited (minds : inquiry.Minds now) : (inquiry.awaited now).Nodup := by
  apply List.Nodup.filter
  apply List.Nodup.of_map Charge.name
  have names : (inquiry.runs.map Run.charge).map Charge.name =
      inquiry.entries.map (·.1.options.name) := by
    rw [runs, List.map_map, List.map_map]
    apply List.map_congr_left
    intro entry entry_mem
    exact congrArg Options.name (minds.started entry entry_mem).1
  rw [names]
  exact minds.names_nodup

end Inquiry

namespace Ledger

variable (ledger : Ledger)

/-- The calls under way: which executions, and who waits for them. -/
def charges : List Charge := ledger.inFlight.map Run.charge

theorem charges_cancel {concerns : Run → Bool} {strikes : Charge → Bool}
    (agree : ∀ run, concerns run = strikes run.charge) :
    (ledger.cancel concerns).charges = ledger.charges.filter (!strikes ·) := by
  rw [charges, inFlight_cancel]
  apply Run.map_charge_filter
  intro run _
  rw [agree]

theorem charges_cancel_timer (name : String) :
    (ledger.cancel fun run => run.owner == .timer && run.name == name).charges =
      ledger.charges.filter fun charge => !(charge.owner == .timer && charge.name == name) :=
  ledger.charges_cancel fun _ => rfl

theorem charges_cancel_timers :
    (ledger.cancel (·.owner == .timer)).charges =
      ledger.charges.filter fun charge => !(charge.owner == .timer) :=
  ledger.charges_cancel fun _ => rfl

theorem charges_cancel_inquiry (ticket : Nat) :
    (ledger.cancel (·.owner == .inquiry ticket)).charges =
      ledger.charges.filter fun charge => !(charge.owner == .inquiry ticket) :=
  ledger.charges_cancel fun _ => rfl

theorem charges_record (runs : List Run) :
    (ledger.record runs).charges =
      ledger.charges ++ (runs.filter (·.isOpen ledger.now)).map Run.charge := by
  rw [charges, inFlight_record, List.map_append]
  rfl

end Ledger
end Vitals
