import Vitals.Data.Named
import Vitals.Options
import Vitals.Probes.Resource

/-!
# Configurations

What a service is told about itself: a general section, a section on the address it serves, and
its probes. Every setting but the name and the kind of a probe, and the address of an HTTP probe,
has a default.
-/

namespace Vitals

def programName : String := "vitals-registry"

def programVersion : String := "0.1.0"

namespace Config

/-- The general section. -/
structure Global where
  /-- The version of the service; without one the service has the version of the program. -/
  version : Option String
  logLevel : String
  jsonLogs : Bool
  /-- The file that the log is written to; without one it goes to the standard error output. -/
  logFile : Option String
  /-- The timeout of probes without one of their own, in milliseconds. -/
  defaultTimeout : UInt64
  deriving DecidableEq, Repr

/-- The general section when nothing is set. -/
def Global.default : Global := ⟨none, "info", false, none, 5000⟩

instance : Inhabited Global := ⟨.default⟩

def Global.serviceVersion (global : Global) : String := global.version.getD programVersion

/-- The section on serving. -/
structure Web where
  bindAddress : String
  port : UInt16
  /-- Whether background results are served. -/
  exposeCached : Bool
  deriving DecidableEq, Repr

/-- The section on serving when nothing is set. -/
def Web.default : Web := ⟨"0.0.0.0", 8080, true⟩

instance : Inhabited Web := ⟨.default⟩

/-- What an HTTP probe requests, and the status codes that it takes for healthy. -/
structure HttpCheck where
  url : String
  method : String
  expectedCodes : List UInt16
  headers : Named String
  deriving DecidableEq, Repr

inductive ProbeKind where
  | http (check : HttpCheck)
  | memory (thresholds : Thresholds)
  | disk (path : String) (thresholds : Thresholds)
  deriving BEq

def ProbeKind.label : ProbeKind → String
  | .http _ => "http"
  | .memory _ => "memory"
  | .disk _ _ => "disk"

/-- A probe; times are in milliseconds. -/
structure Probe where
  name : String
  critical : Bool
  timeout : Option UInt64
  interval : Option UInt64
  kind : ProbeKind
  deriving BEq

/-- The options under which a probe is registered. -/
def Probe.options (probe : Probe) (defaultTimeout : UInt64) : Options :=
  { name := probe.name
    timeout := (probe.timeout.getD defaultTimeout).toNat
    critical := probe.critical
    interval := probe.interval.map UInt64.toNat }

end Config

structure Config where
  global : Config.Global
  web : Config.Web
  probes : List Config.Probe
  deriving BEq

/-- The configuration in which nothing is set. -/
def Config.default : Config := ⟨.default, .default, []⟩

instance : Inhabited Config := ⟨.default⟩

end Vitals
