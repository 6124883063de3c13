import Vitals.Proofs.Registry.Names
import Vitals.Proofs.Registry.Pace

/-!
# Virtual time

When a run lets time pass, it does not matter in how many pieces. `timeline` joins the pieces, so
two runs with the same timeline do the same at the same virtual times. `upTo` cuts a run off some
time after its start; a run that is cut has the timeline cut at the same time.

A passage of time with a limit on the turns of timers is left as it is: where it ends, timers may
be behind, and the next passage finds them so.
-/

namespace Vitals

namespace Registry

namespace Action

/-- The milliseconds that pass. -/
def duration : Action → Nat
  | .advance milliseconds => milliseconds
  | .pass milliseconds _ => milliseconds
  | _ => 0

/-- The action as far as it gets in a number of milliseconds. -/
def within (limit : Nat) : Action → Action
  | .advance milliseconds => .advance (min milliseconds limit)
  | .pass milliseconds turns => .pass (min milliseconds limit) turns
  | action => action

/-- Puts an action before others. Two free passages of time become one. -/
def join : Action → List Action → List Action
  | .advance first, .advance second :: rest => .advance (first + second) :: rest
  | action, rest => action :: rest

end Action

/-- A run without the borders between free passages of time. -/
def timeline (actions : List Action) : List Action := actions.foldr Action.join []

/-- What happens in the first milliseconds of a run, and at the end of them. -/
def upTo (elapsed : Nat) : List Action → List Action
  | [] => []
  | action :: rest =>
      if action.duration ≤ elapsed then action :: upTo (elapsed - action.duration) rest
      else [action.within elapsed]

theorem timeline_cons (action : Action) (rest : List Action) :
    timeline (action :: rest) = action.join (timeline rest) := rfl

theorem timeline_append (earlier later : List Action) :
    timeline (earlier ++ later) = earlier.foldr Action.join (timeline later) :=
  List.foldr_append

theorem Action.join_advance (first second : Nat) (rest : List Action) :
    (advance first).join ((advance second).join rest) = (advance (first + second)).join rest := by
  cases rest with
  | nil => rfl
  | cons next rest =>
      cases next with
      | advance third => simp only [join, Nat.add_assoc]
      | _ => rfl

theorem upTo_advance_add (elapsed first second : Nat) (rest : List Action) :
    upTo elapsed (.advance (first + second) :: rest) =
      if first ≤ elapsed then
        (Action.advance first).join (upTo (elapsed - first) (.advance second :: rest))
      else [.advance (min first elapsed)] := by
  simp only [upTo, Action.duration, Action.within]
  by_cases reached : first ≤ elapsed
  · by_cases both : first + second ≤ elapsed
    · have sameRest : elapsed - first - second = elapsed - (first + second) := by omega
      have second_le : second ≤ elapsed - first := by omega
      simp [both, reached, second_le, sameRest, Action.join]
    · have second_gt : ¬second ≤ elapsed - first := by omega
      have sameEnd : min (first + second) elapsed = first + min second (elapsed - first) := by
        omega
      simp [both, reached, second_gt, sameEnd, Action.join]
  · have both : ¬first + second ≤ elapsed := by omega
    have sameEnd : min (first + second) elapsed = min first elapsed := by omega
    simp [both, reached, sameEnd]

theorem upTo_join (elapsed : Nat) (action : Action) (rest : List Action) :
    upTo elapsed (action.join rest) =
      if action.duration ≤ elapsed then action.join (upTo (elapsed - action.duration) rest)
      else [action.within elapsed] := by
  cases action with
  | advance first =>
      cases rest with
      | nil => rfl
      | cons next rest =>
          cases next with
          | advance second => exact upTo_advance_add elapsed first second rest
          | _ =>
              -- What is cut off behind the border leaves the border where it is.
              simp only [Action.join, upTo]
              split
              · split <;> rfl
              · rfl
  | _ => rfl

/-- The run that is cut has the timeline cut. -/
theorem timeline_upTo (elapsed : Nat) (actions : List Action) :
    timeline (upTo elapsed actions) = upTo elapsed (timeline actions) := by
  induction actions generalizing elapsed with
  | nil => rfl
  | cons action rest ih =>
      rw [timeline_cons, upTo_join, upTo]
      split
      · rw [timeline_cons, ih]
      · cases action <;> rfl

/-- To leave out what takes no time, and to cut a run, can be done in either order. -/
theorem filter_upTo {keeps : Action → Bool}
    (timeless : ∀ action, keeps action = false → action.duration = 0)
    (within : ∀ action limit, keeps (action.within limit) = keeps action) (elapsed : Nat)
    (actions : List Action) :
    (upTo elapsed actions).filter keeps = upTo elapsed (actions.filter keeps) := by
  induction actions generalizing elapsed with
  | nil => rfl
  | cons action rest ih =>
      cases kept : keeps action with
      | true =>
          rw [List.filter_cons_of_pos kept, upTo, upTo]
          split
          · rw [List.filter_cons_of_pos kept, ih]
          · rw [List.filter_cons_of_pos (by rw [within, kept]), List.filter_nil]
      | false =>
          have instant : action.duration ≤ elapsed := by
            rw [timeless action kept]
            exact Nat.zero_le _
          rw [upTo, if_pos instant, List.filter_cons_of_neg (by simp [kept]),
            List.filter_cons_of_neg (by simp [kept]), timeless action kept, Nat.sub_zero, ih]

theorem register_mem_of_upTo {elapsed : Nat} {actions : List Action} {options : Options}
    {probe : Probe} (register_mem : .register options probe ∈ upTo elapsed actions) :
    .register options probe ∈ actions := by
  induction actions generalizing elapsed with
  | nil => exact register_mem
  | cons action rest ih =>
      rw [upTo] at register_mem
      split at register_mem
      · rcases List.mem_cons.mp register_mem with rfl | later
        · exact List.mem_cons_self
        · exact List.mem_cons_of_mem _ (ih later)
      · next cut =>
          have whole := List.mem_singleton.mp register_mem
          cases action with
          | advance milliseconds => cases whole
          | pass milliseconds turns => cases whole
          | _ => exact absurd (Nat.zero_le _) cut

/-- Two registries that differ in nothing but the order in which executions of different names
stand on record. -/
structure Alike (left right : Registry) : Prop extends Matches some left right where
  asked : left.asked = right.asked

namespace Alike

variable {left right : Registry}

theorem refl (registry : Registry) : registry.Alike registry :=
  ⟨⟨rfl, rfl, fun name => .refl registry name⟩, rfl⟩

theorem trans {next : Registry} (alike : left.Alike right) (further : right.Alike next) :
    left.Alike next :=
  ⟨alike.toMatches.trans further.toMatches, alike.asked.trans further.asked⟩

theorem step (alike : left.Alike right) (coherent : left.Coherent) (action : Action) :
    (left.step action).Alike (right.step action) where
  names := alike.names_step action
  destroyed := alike.destroyed_step action
  asked := by rw [asked_step, asked_step, alike.asked]
  parts := by
    intro name
    have part := alike.parts name
    have known : ∀ run ∈ left.scheduler.ledger.recordOf name, (some run.owner).isSome = true :=
      fun _ _ => rfl
    have inStep := part.scheduler.inStep known
    cases action with
    | register options probe => exact part.register options probe
    | unregister other => exact part.unregister other
    | destroy => exact part.destroy
    | ask question =>
        have nodup : right.names.Nodup := by
          rw [← alike.names]
          exact coherent.names_nodup
        exact part.ask coherent.names_nodup nodup known (by rw [alike.asked]) question
    | abandon ticket =>
        apply part.abandon
        intro run _ owner isOwner
        rw [Option.some.inj isOwner]
    | advance milliseconds => exact part.advance inStep milliseconds
    | pass milliseconds turns => exact part.pass inStep milliseconds rfl

theorem run (alike : left.Alike right) (coherent : left.Coherent) (actions : List Action) :
    (left.run actions).Alike (right.run actions) := by
  induction actions generalizing left right with
  | nil => exact alike
  | cons action rest ih => exact ih (alike.step coherent action) (coherent.step action)

/-- Time passes in two parts as it passes at once. -/
theorem advance_add {registry : Registry} (orderly : registry.scheduler.Orderly)
    (first second : Nat) :
    ((registry.advance first).advance second).Alike (registry.advance (first + second)) :=
  ⟨⟨rfl, rfl, fun _ =>
    ⟨rfl, rfl, Scheduler.mirrors_advance_add orderly.names_nodup first second⟩⟩, rfl⟩

theorem join {registry : Registry} (coherent : registry.Coherent)
    (orderly : registry.scheduler.Orderly) (action : Action) (rest : List Action) :
    (registry.run (action :: rest)).Alike (registry.run (action.join rest)) := by
  cases action with
  | advance first =>
      cases rest with
      | nil => exact refl _
      | cons next rest =>
          cases next with
          | advance second =>
              exact (advance_add orderly first second).run
                ((coherent.step (.advance first)).step (.advance second)) rest
          | _ => exact refl _
  | _ => exact refl _

end Alike

theorem orderly_step {registry : Registry} (orderly : registry.scheduler.Orderly)
    (action : Action) : (registry.step action).scheduler.Orderly := by
  rw [scheduler_step]
  exact orderly.run _

/-- A run comes out like its timeline. -/
theorem alike_timeline {registry : Registry} (coherent : registry.Coherent)
    (orderly : registry.scheduler.Orderly) (actions : List Action) :
    (registry.run actions).Alike (registry.run (timeline actions)) := by
  induction actions generalizing registry with
  | nil => exact .refl _
  | cons action rest ih =>
      have later : (registry.run (action :: rest)).Alike
          (registry.run (action :: timeline rest)) :=
        ih (coherent.step action) (orderly_step orderly action)
      exact later.trans (.join coherent orderly action (timeline rest))

theorem alike_timeline_of_run (version : String) (created : Nat) (actions : List Action) :
    ((create version created).run actions).Alike
      ((create version created).run (timeline actions)) :=
  alike_timeline (coherent_create version created) (Scheduler.orderly_startingAt created) actions

end Registry

end Vitals
