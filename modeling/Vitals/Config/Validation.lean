import Vitals.Config.Basic
import Vitals.Text.Blank
import Vitals.Text.Capital
import Vitals.Text.Quoted

/-!
# Validation

The rules that a configuration must keep before it is used. They are checked in a fixed order:
the general section, the section on serving, then the probes one by one; the first rule that is
broken is reported.
-/

namespace Vitals.Config

/-- A rule that a probe breaks. -/
inductive ProbeFault where
  | blankName
  | repeatedName
  | zeroTimeout
  | zeroInterval
  | unknownScheme
  | noStatusCode
  | badStatusCode (code : UInt16)
  | unknownMethod (method : String)
  | thresholdOutOfRange
  | thresholdsCrossed
  deriving DecidableEq, Repr

/-- A rule that a configuration breaks. -/
inductive Violation where
  | zeroDefaultTimeout
  | unknownLogLevel (level : String)
  | zeroPort
  | emptyBindAddress
  | probe (name : String) (fault : ProbeFault)
  deriving DecidableEq, Repr

/-- The log levels that a configuration can name. -/
def logLevels : List String := ["debug", "info", "warn", "error"]

/-- The methods that an HTTP probe can use. -/
def methods : List String := ["GET", "POST", "PUT", "DELETE", "HEAD", "OPTIONS", "PATCH"]

/-- A list of words in brackets, each between quotes. -/
def renderWords (words : List String) : String :=
  "[" ++ ", ".intercalate (words.map Text.quoted) ++ "]"

/-- The wording of a broken rule. -/
def ProbeFault.message (name : String) : ProbeFault → String
  | .blankName => "探针名称不能为空"
  | .repeatedName => "探针名称重复: " ++ name
  | .zeroTimeout => "探针 " ++ name ++ " 的超时时间不能为0"
  | .zeroInterval => "探针 " ++ name ++ " 的轮询间隔不能为0"
  | .unknownScheme => "探针 " ++ name ++ " 的URL格式无效"
  | .noStatusCode => "探针 " ++ name ++ " 必须指定期望的状态码"
  | .badStatusCode code => "探针 " ++ name ++ " 的状态码 " ++ toString code.toNat ++ " 无效"
  | .unknownMethod method =>
      "探针 " ++ name ++ " 的HTTP方法 " ++ method ++ " 无效，支持的方法: " ++ renderWords methods
  | .thresholdOutOfRange => "探针 " ++ name ++ " 的阈值必须在 (0, 100] 范围内"
  | .thresholdsCrossed => "探针 " ++ name ++ " 的降级阈值不能高于异常阈值"

/-- The wording of a broken rule. -/
def Violation.message : Violation → String
  | .zeroDefaultTimeout => "默认超时时间不能为0"
  | .unknownLogLevel level =>
      "无效的日志级别: " ++ level ++ "，支持的级别: " ++ renderWords logLevels
  | .zeroPort => "Web服务器端口不能为0"
  | .emptyBindAddress => "Web服务器绑定地址不能为空"
  | .probe name fault => fault.message name

/-- The rule of the general section that is broken. -/
def Global.violation? (global : Global) : Option Violation :=
  if global.defaultTimeout = 0 then some .zeroDefaultTimeout
  else if global.logLevel ∉ logLevels then some (.unknownLogLevel global.logLevel)
  else none

/-- The rule of the section on serving that is broken. -/
def Web.violation? (web : Web) : Option Violation :=
  if web.port = 0 then some .zeroPort
  else if web.bindAddress = "" then some .emptyBindAddress
  else none

/-- A status code that an HTTP answer can have. -/
def isStatusCode (code : UInt16) : Bool := 100 ≤ code && code ≤ 599

/-- The URL of an HTTP probe starts with one of two schemes, in small letters. -/
def hasScheme (url : String) : Bool :=
  "http://".toList.isPrefixOf url.toList || "https://".toList.isPrefixOf url.toList

/-- The rule of an HTTP probe that is broken. -/
def HttpCheck.fault? (check : HttpCheck) : Option ProbeFault :=
  if !hasScheme check.url then some .unknownScheme
  else if check.expectedCodes = [] then some .noStatusCode
  else match check.expectedCodes.find? fun code => !isStatusCode code with
    | some code => some (.badStatusCode code)
    | none =>
        if Text.capitals check.method ∉ methods then some (.unknownMethod check.method) else none

/-- A threshold above 0 and up to 100 percent. -/
def isThreshold (percent : Float) : Bool := 0.0 < percent && percent ≤ 100.0

/-- The rule of thresholds that is broken. -/
def thresholdFault? (thresholds : Thresholds) : Option ProbeFault :=
  if !isThreshold thresholds.degraded || !isThreshold thresholds.unhealthy then
    some .thresholdOutOfRange
  else if thresholds.unhealthy < thresholds.degraded then some .thresholdsCrossed
  else none

/-- The rule of a kind that is broken. -/
def ProbeKind.fault? : ProbeKind → Option ProbeFault
  | .http check => check.fault?
  | .memory thresholds | .disk _ thresholds => thresholdFault? thresholds

/-- The rule that a probe breaks behind probes with some names. -/
def Probe.fault? (earlier : List String) (probe : Probe) : Option ProbeFault :=
  if Text.isBlankText probe.name then some .blankName
  else if probe.name ∈ earlier then some .repeatedName
  else if probe.timeout = some 0 then some .zeroTimeout
  else if probe.interval = some 0 then some .zeroInterval
  else probe.kind.fault?

/-- The first rule that one of the probes breaks, behind probes with some names. -/
def probesViolation? (earlier : List String) : List Probe → Option Violation
  | [] => none
  | probe :: rest =>
      match probe.fault? earlier with
      | some fault => some (.probe probe.name fault)
      | none => probesViolation? (probe.name :: earlier) rest

end Config

/-- The first rule that a configuration breaks. -/
def Config.violation? (config : Config) : Option Config.Violation :=
  config.global.violation? <|> config.web.violation? <|> Config.probesViolation? [] config.probes

end Vitals
