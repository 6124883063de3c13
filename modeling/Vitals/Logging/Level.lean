/-!
# Log levels

The weight of a log event, and the verbosity that says which weights are written.
-/

namespace Vitals.Logging

/-- The weight of an event, the heaviest first. -/
inductive Level where
  | error
  | warn
  | info
  | debug
  | trace
  deriving DecidableEq, Repr, Inhabited

namespace Level

/-- The position of a level behind the heaviest one, counted from 1. -/
def rank : Level → Nat
  | .error => 1
  | .warn => 2
  | .info => 3
  | .debug => 4
  | .trace => 5

def label : Level → String
  | .error => "ERROR"
  | .warn => "WARN"
  | .info => "INFO"
  | .debug => "DEBUG"
  | .trace => "TRACE"

end Level

/-- Which events are written: none, or those of a level and all heavier ones. -/
inductive Verbosity where
  | off
  | upTo (level : Level)
  deriving DecidableEq, Repr, Inhabited

namespace Verbosity

/-- Events of a level are written. -/
def allows (verbosity : Verbosity) (level : Level) : Bool :=
  match verbosity with
  | .off => false
  | .upTo lightest => level.rank ≤ lightest.rank

def label : Verbosity → String
  | .off => "OFF"
  | .upTo level => level.label

/-- The name of a verbosity in small letters. -/
def lowerLabel (verbosity : Verbosity) : String := verbosity.label.toLower

/-- The name of a verbosity with a capital in front. -/
def titleLabel : Verbosity → String
  | .off => "Off"
  | .upTo .error => "Error"
  | .upTo .warn => "Warn"
  | .upTo .info => "Info"
  | .upTo .debug => "Debug"
  | .upTo .trace => "Trace"

/-- The verbosity of a name, in letters of either case. -/
def ofName? (name : String) : Option Verbosity :=
  match name.toLower with
  | "off" => some .off
  | "error" => some (.upTo .error)
  | "warn" => some (.upTo .warn)
  | "info" => some (.upTo .info)
  | "debug" => some (.upTo .debug)
  | "trace" => some (.upTo .trace)
  | _ => none

end Verbosity

end Vitals.Logging
