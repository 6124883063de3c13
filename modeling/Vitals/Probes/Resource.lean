import Vitals.Decimal.Fixed
import Vitals.Execution
import Vitals.Probes.Mount
import Vitals.Snapshot

/-!
# Resource probes

Probes of a resource of which some is used: memory, or the file system that holds a path. Two
thresholds in percent turn the usage into a verdict.
-/

namespace Vitals

/-- From which usage on a resource degrades the service, and from which it is unhealthy. -/
structure Thresholds where
  degraded : Float
  unhealthy : Float
  deriving Inhabited, BEq

namespace Thresholds

/-- The verdict on a usage. A usage that is no number reaches no threshold. -/
def classify (thresholds : Thresholds) (usage : Float) : Status :=
  if usage ≥ thresholds.unhealthy then .unhealthy
  else if usage ≥ thresholds.degraded then .degraded
  else .healthy

end Thresholds

/-- A resource and how much of it is used, in bytes. -/
structure Usage where
  used : Nat
  total : Nat
  deriving DecidableEq, Repr, Inhabited

namespace Usage

def percent (usage : Usage) : Float := usagePercent usage.used usage.total

/-- The result of a resource probe: the readings as details, the usage to two places, and a
message if the usage has reached a threshold. -/
def toResult (usage : Usage) (name resource : String) (thresholds : Thresholds) : Result :=
  let percent := usage.percent
  let status := thresholds.classify percent
  let result := (Result.plain name status)
    |>.withDetail "used_bytes" (.ofNat usage.used)
    |>.withDetail "total_bytes" (.ofNat usage.total)
    |>.withDetail "usage_percent" (.float ((percent * 100.0).round / 100.0))
  if status = .healthy then result
  else
    { result with
      message := some (resource ++ " usage at " ++ Decimal.fixed 1 percent ++ "%") }

end Usage

/-- What a host lets its probes read: its memory, and its file systems by mount point. -/
structure Host where
  memory : Usage
  mounts : List (String × Usage)
  deriving Inhabited

namespace Host

/-- The usage of the file system that holds a path. -/
def usageAt? (host : Host) (path : String) : Option Usage := do
  let mount ← Mount.deepest? path (host.mounts.map Prod.fst)
  host.mounts.lookup mount

/-- What a memory probe finds. -/
def checkMemory (host : Host) (name : String) (thresholds : Thresholds) : Outcome :=
  .returned (host.memory.toResult name "memory" thresholds)

/-- What a probe of the file system that holds a path finds. -/
def checkDisk (host : Host) (name path : String) (thresholds : Thresholds) : Outcome :=
  match host.usageAt? path with
  | some usage =>
      .returned ((usage.toResult name "disk" thresholds).withDetail "path" (.text path))
  | none => .failed ("未找到路径 " ++ path ++ " 所在的磁盘") []

end Host

end Vitals
