import Vitals.Data.Record

/-!
# The state of the host

What a report says about the machine that produced it: memory, load, uptimes and names.
-/

namespace Vitals

/-- The share that `used` takes of `total`, in percent; nothing is used of nothing. -/
def usagePercent (used total : Nat) : Float :=
  if total = 0 then 0.0 else Float.ofNat used / Float.ofNat total * 100.0

structure Memory where
  totalBytes : Nat
  usedBytes : Nat
  freeBytes : Nat
  usage : Float
  deriving Inhabited

namespace Memory

/-- The memory of a host from two readings; no more than all of it is used. -/
def ofTotals (totalBytes usedBytes : Nat) : Memory :=
  let usedBytes := min usedBytes totalBytes
  ⟨totalBytes, usedBytes, totalBytes - usedBytes, usagePercent usedBytes totalBytes⟩

def fieldNames : List String := ["total_bytes", "used_bytes", "free_bytes", "usage_percent"]

def toValue (memory : Memory) : Value :=
  .table
    [("total_bytes", .ofNat memory.totalBytes), ("used_bytes", .ofNat memory.usedBytes),
      ("free_bytes", .ofNat memory.freeBytes), ("usage_percent", .float memory.usage)]

def ofValue? (value : Value) : Option Memory := do
  let record ← Record.ofValue? .refused fieldNames value
  let totalBytes ← record.require "total_bytes" Value.toNat64?
  let usedBytes ← record.require "used_bytes" Value.toNat64?
  let freeBytes ← record.require "free_bytes" Value.toNat64?
  let usage ← record.require "usage_percent" Value.toFloat?
  return ⟨totalBytes, usedBytes, freeBytes, usage⟩

end Memory

/-- The processors of a host: the load of the last one, five and fifteen minutes, and how many
cores there are. -/
structure Processors where
  loadOne : Float
  loadFive : Float
  loadFifteen : Float
  cores : Nat
  deriving Inhabited

namespace Processors

def toValue (processors : Processors) : Value :=
  .table
    [("load_average", .list
        [.float processors.loadOne, .float processors.loadFive, .float processors.loadFifteen]),
      ("cores", .ofNat processors.cores)]

def ofValue? (value : Value) : Option Processors := do
  let record ← Record.ofValue? .refused ["load_average", "cores"] value
  let loads ← record.require "load_average" (Value.toList? Value.toFloat?)
  let cores ← record.require "cores" Value.toNat64?
  match loads with
  | [one, five, fifteen] => return ⟨one, five, fifteen, cores⟩
  | _ => none

end Processors

/-- The state of a host. -/
structure Snapshot where
  memory : Memory
  processors : Processors
  processUptime : Nat
  hostUptime : Nat
  platform : String
  osVersion : Option String
  arch : String
  runtime : String
  deriving Inhabited

namespace Snapshot

def fieldNames : List String :=
  ["memory", "cpu", "process_uptime_secs", "host_uptime_secs", "platform", "os_version", "arch",
    "runtime"]

/-- The tree of a host's state. -/
def toValue (snapshot : Snapshot) : Value :=
  .table
    [("memory", snapshot.memory.toValue), ("cpu", snapshot.processors.toValue),
      ("process_uptime_secs", .ofNat snapshot.processUptime),
      ("host_uptime_secs", .ofNat snapshot.hostUptime), ("platform", .text snapshot.platform),
      ("os_version", (snapshot.osVersion.map .text).getD .null), ("arch", .text snapshot.arch),
      ("runtime", .text snapshot.runtime)]

/-- The host's state of a tree. -/
def ofValue? (value : Value) : Option Snapshot := do
  let record ← Record.ofValue? .refused fieldNames value
  let memory ← record.require "memory" Memory.ofValue?
  let processors ← record.require "cpu" Processors.ofValue?
  let processUptime ← record.require "process_uptime_secs" Value.toNat64?
  let hostUptime ← record.require "host_uptime_secs" Value.toNat64?
  let platform ← record.require "platform" Value.toText?
  let osVersion ← record.nullable "os_version" Value.toText?
  let arch ← record.require "arch" Value.toText?
  let runtime ← record.require "runtime" Value.toText?
  return ⟨memory, processors, processUptime, hostUptime, platform, osVersion, arch, runtime⟩

end Snapshot

end Vitals
