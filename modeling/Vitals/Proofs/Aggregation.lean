import Mathlib.Order.Bounds.Defs
import Vitals.Aggregate

/-!
# The verdict of an aggregation

`aggregate` stops as soon as the service is known to be unhealthy. To stop early changes nothing,
since no verdict is worse; so the verdict is the worst contribution of any check, wherever it
stands in the list. It follows that the order of the checks does not matter, that parts can be
aggregated on their own, and that no verdict improves when anything gets worse.
-/

namespace Vitals

namespace Status

theorem le_refl (status : Status) : status ≤ status := Nat.le_refl status.severity

theorem le_trans {left middle right : Status} (first : left ≤ middle) (second : middle ≤ right) :
    left ≤ right := Nat.le_trans first second

theorem le_antisymm {left right : Status} : left ≤ right → right ≤ left → left = right := by
  cases left <;> cases right <;> decide

theorem eq_of_forall_le_iff {left right : Status}
    (same : ∀ status : Status, status ≤ left ↔ status ≤ right) : left = right :=
  le_antisymm ((same left).mp (le_refl left)) ((same right).mpr (le_refl right))

@[simp]
theorem healthy_le (status : Status) : healthy ≤ status := Nat.zero_le status.severity

@[simp]
theorem unhealthy_le_iff {status : Status} : unhealthy ≤ status ↔ status = unhealthy := by
  cases status <;> decide

@[simp]
theorem degraded_le_iff {status : Status} : degraded ≤ status ↔ status ≠ healthy := by
  cases status <;> decide

@[simp]
theorem unhealthy_worst (status : Status) : unhealthy.worst status = unhealthy := by
  cases status <;> rfl

/-- A verdict is reached by the worse of two if it is reached by one of them. -/
theorem le_worst {status left right : Status} :
    status ≤ left.worst right ↔ status ≤ left ∨ status ≤ right := by
  cases status <;> cases left <;> cases right <;> decide

theorem le_foldl_worst {status worst : Status} {statuses : List Status} :
    status ≤ statuses.foldl Status.worst worst ↔
      status ≤ worst ∨ ∃ other ∈ statuses, status ≤ other := by
  induction statuses generalizing worst with
  | nil => simp
  | cons head rest ih =>
      simp only [List.foldl_cons, ih, le_worst, or_assoc, List.mem_cons, exists_eq_or_imp]

theorem foldl_worst_unhealthy (statuses : List Status) :
    statuses.foldl Status.worst unhealthy = unhealthy := by
  induction statuses with
  | nil => rfl
  | cons head rest ih => rw [List.foldl_cons, unhealthy_worst, ih]

end Status

variable {critical : List String} {results : List Result}

theorem contribution_eq_unhealthy {result : Result} :
    contribution critical result = .unhealthy ↔
      result.status = .unhealthy ∧ result.name ∈ critical := by
  unfold contribution
  cases result.status with
  | unhealthy =>
      by_cases known : result.name ∈ critical
      · simp [known]
      · simp [known]
  | _ => simp

theorem contribution_eq_healthy {result : Result} :
    contribution critical result = .healthy ↔ result.status = .healthy := by
  unfold contribution
  cases result.status with
  | unhealthy =>
      by_cases known : result.name ∈ critical
      · simp [known]
      · simp [known]
  | _ => simp

theorem aggregateFrom_eq_foldl (worst : Status) :
    aggregateFrom critical worst results =
      (results.map (contribution critical)).foldl Status.worst worst := by
  induction results generalizing worst with
  | nil => rfl
  | cons result rest ih =>
      rw [aggregateFrom, List.map_cons, List.foldl_cons]
      by_cases settled : worst.worst (contribution critical result) = .unhealthy
      · simp only [settled, if_true, Status.foldl_worst_unhealthy]
      · simp only [settled, if_false, ih]

/-- The verdict reaches a status if the contribution of some check does. -/
theorem le_aggregate {status : Status} (notHealthy : status ≠ .healthy) :
    status ≤ aggregate critical results ↔
      ∃ result ∈ results, status ≤ contribution critical result := by
  have start : ¬status ≤ .healthy := by
    cases status with
    | healthy => exact absurd rfl notHealthy
    | degraded => decide
    | unhealthy => decide
  rw [aggregate, aggregateFrom_eq_foldl, Status.le_foldl_worst, or_iff_right start]
  constructor
  · rintro ⟨other, other_mem, reached⟩
    rcases List.mem_map.mp other_mem with ⟨result, result_mem, rfl⟩
    exact ⟨result, result_mem, reached⟩
  · rintro ⟨result, result_mem, reached⟩
    exact ⟨contribution critical result, List.mem_map_of_mem result_mem, reached⟩

theorem aggregate_eq_unhealthy :
    aggregate critical results = .unhealthy ↔
      ∃ result ∈ results, result.status = .unhealthy ∧ result.name ∈ critical := by
  rw [← Status.unhealthy_le_iff, le_aggregate (by decide)]
  simp only [Status.unhealthy_le_iff, contribution_eq_unhealthy]

theorem aggregate_ne_healthy :
    aggregate critical results ≠ .healthy ↔ ∃ result ∈ results, result.status ≠ .healthy := by
  rw [← Status.degraded_le_iff, le_aggregate (by decide)]
  simp only [Status.degraded_le_iff, ne_eq, contribution_eq_healthy]

theorem aggregate_eq_healthy :
    aggregate critical results = .healthy ↔ ∀ result ∈ results, result.status = .healthy := by
  constructor
  · intro settled result result_mem
    apply Decidable.byContradiction
    intro failed
    exact aggregate_ne_healthy.mpr ⟨result, result_mem, failed⟩ settled
  · intro allHealthy
    apply Decidable.byContradiction
    intro unsettled
    rcases aggregate_ne_healthy.mp unsettled with ⟨result, result_mem, failed⟩
    exact failed (allHealthy result result_mem)

theorem aggregate_eq_degraded :
    aggregate critical results = .degraded ↔
      aggregate critical results ≠ .unhealthy ∧ ∃ result ∈ results, result.status ≠ .healthy := by
  rw [← @aggregate_ne_healthy critical results]
  cases aggregate critical results <;> decide

/-! ## The law of aggregation -/

/-- What a check counts for: an unhealthy one counts as unhealthy only if its name is critical, and
every other one that is not healthy counts as degraded. -/
inductive CountsAs (critical : List String) (result : Result) : Status → Prop where
  | unhealthy (failed : result.status = .unhealthy) (isCritical : result.name ∈ critical) :
      CountsAs critical result .unhealthy
  | degraded (failed : result.status ≠ .healthy)
      (tolerated : result.status = .unhealthy → result.name ∉ critical) :
      CountsAs critical result .degraded
  | healthy (well : result.status = .healthy) : CountsAs critical result .healthy

theorem countsAs_iff {result : Result} {status : Status} :
    CountsAs critical result status ↔ contribution critical result = status := by
  constructor
  · intro counts
    cases counts with
    | unhealthy failed isCritical => exact contribution_eq_unhealthy.mpr ⟨failed, isCritical⟩
    | degraded failed tolerated =>
        have notHealthy : contribution critical result ≠ .healthy :=
          mt contribution_eq_healthy.mp failed
        have notUnhealthy : contribution critical result ≠ .unhealthy := by
          rw [ne_eq, contribution_eq_unhealthy, not_and]
          exact tolerated
        revert notHealthy notUnhealthy
        cases contribution critical result <;> decide
    | healthy well => exact contribution_eq_healthy.mpr well
  · rintro rfl
    cases counted : contribution critical result with
    | unhealthy =>
        rcases contribution_eq_unhealthy.mp counted with ⟨failed, isCritical⟩
        exact .unhealthy failed isCritical
    | degraded =>
        refine .degraded ?_ ?_
        · intro well
          rw [contribution_eq_healthy.mpr well] at counted
          cases counted
        · intro failed isCritical
          rw [contribution_eq_unhealthy.mpr ⟨failed, isCritical⟩] at counted
          cases counted
    | healthy => exact .healthy (contribution_eq_healthy.mp counted)

theorem contribution_le_aggregate {result : Result} (result_mem : result ∈ results) :
    contribution critical result ≤ aggregate critical results := by
  by_cases well : contribution critical result = .healthy
  · rw [well]
    exact Status.healthy_le _
  · exact (le_aggregate well).mpr ⟨result, result_mem, Status.le_refl _⟩

theorem exists_contribution_eq_aggregate (nonempty : results ≠ []) :
    ∃ result ∈ results, contribution critical result = aggregate critical results := by
  by_cases well : aggregate critical results = .healthy
  · rcases List.exists_mem_of_ne_nil results nonempty with ⟨result, result_mem⟩
    refine ⟨result, result_mem, ?_⟩
    rw [well, contribution_eq_healthy]
    exact aggregate_eq_healthy.mp well result result_mem
  · rcases (le_aggregate well).mp (Status.le_refl _) with ⟨result, result_mem, reached⟩
    exact ⟨result, result_mem,
      Status.le_antisymm (contribution_le_aggregate result_mem) reached⟩

/-- A check counts for no less when its status is worse and when more names are critical. -/
theorem contribution_mono {more : List String} {old new : Result} (wider : critical ⊆ more)
    (named : new.name = old.name) (worse : old.status ≤ new.status) :
    contribution critical old ≤ contribution more new := by
  cases counted : contribution critical old with
  | healthy => exact Status.healthy_le _
  | degraded =>
      rw [Status.degraded_le_iff, ne_eq, contribution_eq_healthy]
      intro well
      rw [well] at worse
      have oldWell : old.status = .healthy := Status.le_antisymm worse (Status.healthy_le _)
      rw [contribution_eq_healthy.mpr oldWell] at counted
      cases counted
  | unhealthy =>
      rcases contribution_eq_unhealthy.mp counted with ⟨failed, isCritical⟩
      rw [failed, Status.unhealthy_le_iff] at worse
      rw [Status.unhealthy_le_iff, contribution_eq_unhealthy, named]
      exact ⟨worse, wider isCritical⟩

/-- The verdict is no better if every check is still there, of its name and no better, and every
critical name is still critical. -/
theorem aggregate_mono {more : List String} {others : List Result} (wider : critical ⊆ more)
    (worse : ∀ result ∈ results, ∃ other ∈ others,
      other.name = result.name ∧ result.status ≤ other.status) :
    aggregate critical results ≤ aggregate more others := by
  by_cases well : aggregate critical results = .healthy
  · rw [well]
    exact Status.healthy_le _
  · rcases (le_aggregate well).mp (Status.le_refl _) with ⟨result, result_mem, reached⟩
    rcases worse result result_mem with ⟨other, other_mem, named, noBetter⟩
    exact Status.le_trans reached (Status.le_trans (contribution_mono wider named noBetter)
      (contribution_le_aggregate other_mem))

theorem aggregate_le_of_subset {others : List Result} (among : results ⊆ others) :
    aggregate critical results ≤ aggregate critical others :=
  aggregate_mono (List.Subset.refl critical) fun result result_mem =>
    ⟨result, among result_mem, rfl, Status.le_refl _⟩

theorem aggregate_append (results others : List Result) :
    aggregate critical (results ++ others) =
      (aggregate critical results).worst (aggregate critical others) := by
  apply Status.eq_of_forall_le_iff
  intro status
  by_cases well : status = .healthy
  · simp [well]
  · simp only [Status.le_worst, le_aggregate well, List.mem_append, or_and_right, exists_or]

/-- The verdict is the worst that any check counts for, and healthy if there are no checks. So it
does not depend on the order of the checks, the verdict on two lists of checks is the worse of the
two verdicts, and no verdict is better where every check is still there and no better, whatever
else is added, and every critical name is still critical. -/
theorem aggregate_of_results (critical : List String) (results : List Result) :
    aggregate critical [] = .healthy ∧
    (results ≠ [] → IsGreatest {status | ∃ result ∈ results, CountsAs critical result status}
      (aggregate critical results)) ∧
    (∀ others, results.Perm others → aggregate critical others = aggregate critical results) ∧
    (∀ others, aggregate critical (results ++ others) =
      (aggregate critical results).worst (aggregate critical others)) ∧
    (∀ more others, critical ⊆ more →
      (∀ result ∈ results, ∃ other ∈ others,
        other.name = result.name ∧ result.status ≤ other.status) →
        aggregate critical results ≤ aggregate more others) := by
  refine ⟨rfl, ?_, ?_, aggregate_append results, fun _ _ => aggregate_mono⟩
  · intro nonempty
    constructor
    · rcases @exists_contribution_eq_aggregate critical results nonempty with
        ⟨result, result_mem, counted⟩
      exact ⟨result, result_mem, countsAs_iff.mpr counted⟩
    · rintro status ⟨result, result_mem, counts⟩
      rw [← countsAs_iff.mp counts]
      exact contribution_le_aggregate result_mem
  · intro others perm
    exact Status.le_antisymm (aggregate_le_of_subset perm.symm.subset)
      (aggregate_le_of_subset perm.subset)

/-- While only a tolerated check fails the service is degraded, in any order; it is no better when
another check is added and a critical one fails too. -/
theorem aggregate_of_failing_results :
    let results := [Result.unhealthy "cache" "refused", Result.healthy "db"]
    let others := [Result.unhealthy "db" "refused", Result.degraded "mail" "slow",
      Result.unhealthy "cache" "refused"]
    IsGreatest {status | ∃ result ∈ results, CountsAs ["db"] result status} .degraded ∧
      aggregate ["db"] results.reverse = .degraded ∧
      aggregate ["db"] results ≤ aggregate ["cache", "db"] others := by
  intro results others
  rcases aggregate_of_results ["db"] results with ⟨-, greatest, reordered, -, mono⟩
  have verdict : aggregate ["db"] results = .degraded := rfl
  refine ⟨verdict ▸ greatest (List.cons_ne_nil _ _), ?_, mono ["cache", "db"] others ?_ ?_⟩
  · rw [reordered _ (List.reverse_perm results).symm, verdict]
  · exact List.subset_cons_self "cache" ["db"]
  · intro result result_mem
    simp only [results, List.mem_cons, List.not_mem_nil, or_false] at result_mem
    rcases result_mem with rfl | rfl
    · exact ⟨Result.unhealthy "cache" "refused", by simp [others], rfl, by decide⟩
    · exact ⟨Result.unhealthy "db" "refused", by simp [others], rfl, by decide⟩

end Vitals
