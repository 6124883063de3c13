import Std.Time
import Vitals.Config.Basic
import Vitals.FileTree
import Vitals.Probes.Readings

/-!
# The host at work

Reads the clock, the variables, the files and the resources of the host that the program runs on.
What cannot be read is taken for absent. There is no way here to ask how full a file system is, so
the host has no file systems for its probes.
-/

namespace Vitals.Live

def clock : IO Nat := do
  return (← Std.Time.Timestamp.now).toMillisecondsSinceUnixEpoch.val.toNat

/-- The text of a file, empty if there is none. -/
def textOf (path : String) : IO String := do
  try
    return (String.fromUTF8? (← IO.FS.readBinFile path)).getD ""
  catch _ => return ""

/-- The variables of the program, and the home directory of its user. -/
def environment : IO Environment := do
  let block ← try IO.FS.readBinFile "/proc/self/environ" catch _ => pure .empty
  return ⟨Readings.bindings block, "/root"⟩

def entryAt (path : String) : IO (Option FileEntry) := do
  try
    if ← (← IO.FS.realPath path).isDir then return some .directory
    return some (.file (← IO.FS.readBinFile path))
  catch _ => return none

/-- The paths of the directories that lead to a path, and the path itself. -/
def waysTo (path : String) : List String :=
  let parts := FileTree.parts path
  (List.range parts.length).map fun count => "/".intercalate (parts.take (count + 1))

/-- The files and directories on the way to some paths. -/
def survey (paths : List String) : IO FileTree := do
  let mut listed := []
  for path in paths.flatMap waysTo do
    if let some entry ← entryAt path then
      listed := (path, entry) :: listed
  return .ofList listed.reverse

/-- What the host lets its probes read. -/
def host : IO Host := do
  let memory := Readings.memory? (← textOf "/proc/meminfo")
  return ⟨memory.getD ⟨0, 0⟩, []⟩

/-- The state of the host, for a program that started at some instant. -/
def snapshot (startedAt : Nat) : IO Snapshot := do
  let memory := (← host).memory
  let (one, five, fifteen) :=
    (Readings.loads? (← textOf "/proc/loadavg")).getD (0.0, 0.0, 0.0)
  let cores := Readings.processorCount (← textOf "/proc/cpuinfo")
  return {
    memory := Memory.ofTotals memory.total memory.used
    processors := ⟨one, five, fifteen, cores⟩
    processUptime := ((← clock) - startedAt) / 1000
    hostUptime := (Readings.uptime? (← textOf "/proc/uptime")).getD 0
    platform := "linux"
    osVersion := some (Readings.release (← textOf "/etc/os-release"))
    arch := Readings.architecture (← textOf "/proc/cpuinfo")
    runtime := programName ++ "/" ++ programVersion }

end Vitals.Live
