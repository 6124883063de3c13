/-!
# Health statuses

The three verdicts a check can reach, ordered from best to worst. The order is the one the
aggregation takes its maximum in; everything else that depends on a status (its label, the exit
code of a check run, the code of an HTTP answer) is a function of the verdict alone.
-/

namespace Vitals

/-- The verdict of a check, from best to worst. -/
inductive Status where
  | healthy
  | degraded
  | unhealthy
  deriving DecidableEq, Repr, Inhabited

namespace Status

/-- The position of a verdict in the order from best to worst. -/
def severity : Status → Nat
  | .healthy => 0
  | .degraded => 1
  | .unhealthy => 2

instance : LE Status := ⟨fun left right => left.severity ≤ right.severity⟩

instance : LT Status := ⟨fun left right => left.severity < right.severity⟩

instance (left right : Status) : Decidable (left ≤ right) :=
  inferInstanceAs (Decidable (left.severity ≤ right.severity))

instance (left right : Status) : Decidable (left < right) :=
  inferInstanceAs (Decidable (left.severity < right.severity))

/-- The worse of two verdicts. -/
def worst (left right : Status) : Status :=
  if left ≤ right then right else left

/-- The name a verdict is written under. -/
def label : Status → String
  | .healthy => "healthy"
  | .degraded => "degraded"
  | .unhealthy => "unhealthy"

/-- The verdict written under a name. -/
def ofLabel? : String → Option Status
  | "healthy" => some .healthy
  | "degraded" => some .degraded
  | "unhealthy" => some .unhealthy
  | _ => none

/-- Everything but an unhealthy service can still be used. -/
def isAvailable (status : Status) : Bool :=
  status != .unhealthy

/-- The sign that opens the line of a check. -/
def sign : Status → String
  | .healthy => "✓"
  | .degraded => "!"
  | .unhealthy => "✗"

/-- The exit code of a run that reported this verdict. -/
def exitCode (status : Status) : Nat :=
  if status.isAvailable then 0 else 2

/-- The code of an HTTP answer that reports this verdict. -/
def httpCode (status : Status) : Nat :=
  if status.isAvailable then 200 else 503

@[simp]
theorem ofLabel?_label (status : Status) : ofLabel? status.label = some status := by
  cases status <;> rfl

@[simp]
theorem severity_worst (left right : Status) :
    (left.worst right).severity = max left.severity right.severity := by
  cases left <;> cases right <;> rfl

end Status

end Vitals
