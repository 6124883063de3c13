import Vitals.Aggregate
import Vitals.Snapshot

/-!
# Reports

What a service says about itself: the report of all its checks, and the short sign of life that
involves none of them.
-/

namespace Vitals

/-- The report of all checks of a service. -/
structure Report where
  status : Status
  version : String
  uptime : Duration
  timestamp : Timestamp
  checks : List Result
  system : Snapshot
  deriving Inhabited

namespace Report

/-- The first result under a name. -/
def check? (report : Report) (name : String) : Option Result :=
  report.checks.find? (·.name == name)

def fieldNames : List String := ["status", "version", "uptime", "timestamp", "checks", "system"]

def toValue (report : Report) : Value :=
  .table
    [("status", report.status.toValue), ("version", .text report.version),
      ("uptime", .ofNat report.uptime.millis), ("timestamp", .text report.timestamp.render),
      ("checks", .list (report.checks.map Result.toValue)), ("system", report.system.toValue)]

def ofValue? (value : Value) : Option Report := do
  let record ← Record.ofValue? .refused fieldNames value
  let status ← record.require "status" Status.ofValue?
  let version ← record.require "version" Value.toText?
  let uptime ← record.require "uptime" Value.toDuration?
  let timestamp ← record.require "timestamp" Value.toTimestamp?
  let checks ← record.require "checks" (Value.toList? Result.ofValue?)
  let system ← record.require "system" Snapshot.ofValue?
  return ⟨status, version, uptime, timestamp, checks, system⟩

end Report

/-- A sign of life: the service runs, and for how long. -/
structure Liveness where
  status : Status
  uptime : Duration
  timestamp : Timestamp
  deriving Inhabited, DecidableEq

namespace Liveness

def fieldNames : List String := ["status", "uptime", "timestamp"]

/-- The tree of a sign of life. -/
def toValue (liveness : Liveness) : Value :=
  .table
    [("status", liveness.status.toValue), ("uptime", .ofNat liveness.uptime.millis),
      ("timestamp", .text liveness.timestamp.render)]

/-- The sign of life of a tree. -/
def ofValue? (value : Value) : Option Liveness := do
  let record ← Record.ofValue? .refused fieldNames value
  let status ← record.require "status" Status.ofValue?
  let uptime ← record.require "uptime" Value.toDuration?
  let timestamp ← record.require "timestamp" Value.toTimestamp?
  return ⟨status, uptime, timestamp⟩

end Liveness

end Vitals
