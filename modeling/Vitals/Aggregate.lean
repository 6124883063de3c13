import Vitals.Result

/-!
# Aggregation

The verdict on a whole service from the results of its checks. An unhealthy check makes the
service unhealthy only if its name is critical; every other check that is not healthy degrades
it. `aggregate` stops at the first check that makes the service unhealthy, because no later one
can change the verdict.
-/

namespace Vitals

/-- What one check contributes to the verdict on the service. -/
def contribution (critical : List String) (result : Result) : Status :=
  match result.status with
  | .unhealthy => if result.name ∈ critical then .unhealthy else .degraded
  | status => status

/-- The verdict of the remaining checks, given the worst so far. -/
def aggregateFrom (critical : List String) (worst : Status) : List Result → Status
  | [] => worst
  | result :: rest =>
      let next := worst.worst (contribution critical result)
      if next = .unhealthy then next else aggregateFrom critical next rest

/-- The verdict on a service whose critical checks are named. -/
def aggregate (critical : List String) (results : List Result) : Status :=
  aggregateFrom critical .healthy results

end Vitals
