import Vitals.Text.Blank

/-!
# Options of a probe

What is said about a probe when it is registered, and the rules that the registry holds it to.
The rules are checked in a fixed order, so a registration with several faults is refused for the
first of them.
-/

namespace Vitals

/-- What is said about a probe when it is registered. Times are whole milliseconds, the resolution
of a timer; a finer time cannot be said. -/
structure Options where
  name : String
  /-- How long one execution may take. -/
  timeout : Nat
  /-- Whether the service is unhealthy when this probe is. -/
  critical : Bool
  /-- The time from one background execution to the next; none runs without it. -/
  interval : Option Nat
  deriving DecidableEq, Repr, Inhabited

/-- Why a registration is refused. -/
inductive Rejection where
  | blankName
  | zeroTimeout (name : String)
  | zeroInterval (name : String)
  | destroyed (name : String)
  deriving DecidableEq, Repr

namespace Rejection

def message : Rejection → String
  | .blankName => "探针名称不能为空"
  | .zeroTimeout name => "探针 '" ++ name ++ "' 的超时时间必须大于0"
  | .zeroInterval name => "探针 '" ++ name ++ "' 的轮询间隔必须大于0"
  | .destroyed name => "注册表已销毁，无法注册探针 '" ++ name ++ "'"

end Rejection

namespace Options

/-- The first rule that the options break: the name is not blank, neither time is zero. -/
def fault? (options : Options) : Option Rejection :=
  if Text.isBlankText options.name then some .blankName
  else if options.timeout = 0 then some (.zeroTimeout options.name)
  else if options.interval = some 0 then some (.zeroInterval options.name)
  else none

theorem fault?_eq_none_iff {options : Options} :
    options.fault? = none ↔ Text.isBlankText options.name = false ∧ options.timeout ≠ 0 ∧
      options.interval ≠ some 0 := by
  unfold fault?
  cases Text.isBlankText options.name with
  | true => simp
  | false =>
      by_cases timeless : options.timeout = 0
      · simp [timeless]
      · simp [timeless]

end Options

end Vitals
