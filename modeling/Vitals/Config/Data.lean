import Vitals.Config.Basic
import Vitals.Data.Record
import Vitals.Result

/-!
# Configurations as trees

`Config.toValue` is the tree of a configuration, without the settings that are absent;
`Config.ofValue?` reads a tree. The settings of a kind stand beside those that all probes share,
with the name of the kind under `kind`. Settings that nobody knows are ignored, but a probe must
not hold data that cannot be read.
-/

namespace Vitals

/-- Where a tree comes from, which decides some details of reading. -/
inductive Format where
  | json
  | toml
  deriving DecidableEq, Repr

namespace Format

/-- A list may hold more than the fields of a record in TOML only. -/
def surplus : Format → Record.Surplus
  | .json => .refused
  | .toml => .ignored

end Format

namespace Value

/-- A whole number of 16 bits without sign. -/
def toUInt16? (value : Value) : Option UInt16 :=
  (value.toNat? UInt16.size).map Nat.toUInt16

/-- A whole number of 64 bits without sign. -/
def toUInt64? (value : Value) : Option UInt64 :=
  value.toNat64?.map Nat.toUInt64

end Value

namespace Config

/-! ## Writing -/

/-- The tree of the general section. -/
def Global.toValue (global : Global) : Value :=
  .table <|
    Value.entry? "version" (global.version.map .text)
      ++ [("log_level", .text global.logLevel), ("json_logs", .bool global.jsonLogs)]
      ++ Value.entry? "log_file" (global.logFile.map .text)
      ++ [("default_timeout_ms", .ofNat global.defaultTimeout.toNat)]

/-- The tree of the section on serving. -/
def Web.toValue (web : Web) : Value :=
  .table
    [("bind_address", .text web.bindAddress), ("port", .ofNat web.port.toNat),
      ("expose_cached", .bool web.exposeCached)]

def thresholdEntries (thresholds : Thresholds) : List (String × Value) :=
  [("degraded_percent", .float thresholds.degraded),
    ("unhealthy_percent", .float thresholds.unhealthy)]

def ProbeKind.entries (kind : ProbeKind) : List (String × Value) :=
  ("kind", .text kind.label) :: match kind with
    | .http check =>
        [("url", .text check.url), ("method", .text check.method),
          ("expected_status_codes",
            .list (check.expectedCodes.map fun code => .ofNat code.toNat)),
          ("headers", .table (check.headers.map fun header => (header.1, .text header.2)))]
    | .memory thresholds => thresholdEntries thresholds
    | .disk path thresholds => ("path", .text path) :: thresholdEntries thresholds

def Probe.toValue (probe : Probe) : Value :=
  .table <|
    [("name", .text probe.name), ("critical", .bool probe.critical)]
      ++ Value.entry? "timeout_ms" (probe.timeout.map fun time => .ofNat time.toNat)
      ++ Value.entry? "interval_ms" (probe.interval.map fun time => .ofNat time.toNat)
      ++ probe.kind.entries

def toValue (config : Config) : Value :=
  .table
    [("global", config.global.toValue), ("web", config.web.toValue),
      ("probes", .list (config.probes.map Probe.toValue))]

/-! ## Reading -/

/-- The general section of a tree. -/
def Global.ofValue? (format : Format) (value : Value) : Option Global := do
  let names := ["version", "log_level", "json_logs", "log_file", "default_timeout_ms"]
  let record ← Record.ofValue? format.surplus names value
  let version ← record.optional "version" Value.toText?
  let logLevel ← record.orElse "log_level" Global.default.logLevel Value.toText?
  let jsonLogs ← record.orElse "json_logs" Global.default.jsonLogs Value.toBool?
  let logFile ← record.optional "log_file" Value.toText?
  let timeout ←
    record.orElse "default_timeout_ms" Global.default.defaultTimeout Value.toUInt64?
  return ⟨version, logLevel, jsonLogs, logFile, timeout⟩

/-- The section on serving of a tree. -/
def Web.ofValue? (format : Format) (value : Value) : Option Web := do
  let names := ["bind_address", "port", "expose_cached"]
  let record ← Record.ofValue? format.surplus names value
  let bindAddress ← record.orElse "bind_address" Web.default.bindAddress Value.toText?
  let port ← record.orElse "port" Web.default.port Value.toUInt16?
  let exposeCached ← record.orElse "expose_cached" Web.default.exposeCached Value.toBool?
  return ⟨bindAddress, port, exposeCached⟩

/-- Thresholds of 85 and 95 percent. -/
def defaultThresholds : Thresholds := ⟨85.0, 95.0⟩

/-- The thresholds among some entries. -/
def thresholdsOf? (record : Record) : Option Thresholds := do
  let degraded ← record.orElse "degraded_percent" defaultThresholds.degraded Value.toFloat?
  let unhealthy ← record.orElse "unhealthy_percent" defaultThresholds.unhealthy Value.toFloat?
  return ⟨degraded, unhealthy⟩

/-- The settings of an HTTP probe among some entries. -/
def httpOf? (entries : List (String × Value)) : Option HttpCheck := do
  let names := ["url", "method", "expected_status_codes", "headers"]
  let record ← Record.ofEntries? names entries
  let url ← record.require "url" Value.toText?
  let method ← record.orElse "method" "GET" Value.toText?
  let codes ← record.orElse "expected_status_codes" [200] (Value.toList? Value.toUInt16?)
  let headers ← record.orElse "headers" [] (Value.toEntries? Value.toText?)
  return ⟨url, method, codes, Named.ofList headers⟩

/-- The name of a kind: its text, or in JSON its number from zero. -/
def kindLabel? (format : Format) : Value → Option String
  | .text label => some label
  | .int number =>
      if format = .json ∧ 0 ≤ number then ["http", "memory", "disk"][number.toNat]? else none
  | _ => none

def ProbeKind.ofEntries? (format : Format) (entries : List (String × Value)) :
    Option ProbeKind := do
  let tag ← Record.ofEntries? ["kind"] entries
  match ← tag.require "kind" (kindLabel? format) with
  | "http" => return .http (← httpOf? entries)
  | "memory" =>
      let record ← Record.ofEntries? ["degraded_percent", "unhealthy_percent"] entries
      return .memory (← thresholdsOf? record)
  | "disk" =>
      let record ← Record.ofEntries? ["path", "degraded_percent", "unhealthy_percent"] entries
      let path ← record.orElse "path" "/" Value.toText?
      return .disk path (← thresholdsOf? record)
  | _ => none

/-- The names of the settings that all probes share. -/
def Probe.sharedNames : List String := ["name", "critical", "timeout_ms", "interval_ms"]

def Probe.ofValue? (format : Format) : Value → Option Probe
  | .table entries => do
      let record ← Record.ofEntries? sharedNames entries
      let others := entries.filter fun entry => !sharedNames.contains entry.1
      if !Value.entriesReadable others then none
      let name ← record.require "name" Value.toText?
      let critical ← record.orElse "critical" false Value.toBool?
      let timeout ← record.optional "timeout_ms" Value.toUInt64?
      let interval ← record.optional "interval_ms" Value.toUInt64?
      return ⟨name, critical, timeout, interval, ← ProbeKind.ofEntries? format others⟩
  | _ => none

def ofValue? (format : Format) (value : Value) : Option Config := do
  let record ← Record.ofValue? format.surplus ["global", "web", "probes"] value
  let global ← record.orElse "global" Global.default (Global.ofValue? format)
  let web ← record.orElse "web" Web.default (Web.ofValue? format)
  let probes ← record.orElse "probes" [] (Value.toList? (Probe.ofValue? format))
  return ⟨global, web, probes⟩

end Config

end Vitals
