import Vitals.CommandLine.Arguments
import Vitals.Config.Basic
import Vitals.Data.Json
import Vitals.Report
import Vitals.Web.Address

/-!
# What commands print

The version of the program, results and reports in either format, and the overview of a
configuration.
-/

namespace Vitals

def programDescription : String :=
  "A health probe registry with timeout-bounded execution, status aggregation and "
    ++ "liveness/readiness endpoints"

namespace CommandLine

def versionTexts : OutputFormat → List String
  | .text => [programName ++ " v" ++ programVersion, programDescription]
  | .json =>
      [Json.renderPretty 0 <| .table
        [("description", .text programDescription), ("name", .text programName),
          ("version", .text programVersion)]]

def resultTexts (format : OutputFormat) (result : Result) : List String :=
  match format with
  | .text => [result.line]
  | .json => [Json.renderPretty 0 result.toValue]

def reportTexts (format : OutputFormat) (report : Report) : List String :=
  match format with
  | .text =>
      ("整体状态: " ++ report.status.label ++ " (版本 " ++ report.version ++ ")")
        :: (if report.checks.isEmpty then ["未注册任何探针"] else [])
        ++ report.checks.map fun check => "  " ++ check.line
  | .json => [Json.renderPretty 0 report.toValue]

/-- A row of the overview of probes: columns of fixed width. -/
def tableRow (name kind critical timeout interval : String) : String :=
  " ".intercalate
    [Text.padded 20 name, Text.padded 8 kind, Text.padded 6 critical, Text.padded 10 timeout,
      Text.padded 10 interval]

def probeRow (config : Config) (probe : Config.Probe) : String :=
  let options := probe.options config.global.defaultTimeout
  let milliseconds (number : Nat) : String := toString number ++ "ms"
  tableRow probe.name probe.kind.label (if probe.critical then "是" else "否")
    (milliseconds options.timeout) ((options.interval.map milliseconds).getD "-")

def probeTable (config : Config) : List String :=
  if config.probes.isEmpty then []
  else
    tableRow "名称" "类型" "关键" "超时" "轮询间隔"
      :: String.ofList (List.replicate 60 '-')
      :: config.probes.map (probeRow config)

/-- The overview of the settings that do not belong to a probe. -/
def settingTexts (config : Config) : List String :=
  ["全局配置:",
    "  服务版本: " ++ config.global.serviceVersion,
    "  日志级别: " ++ config.global.logLevel,
    "  默认超时: " ++ toString config.global.defaultTimeout.toNat ++ "ms",
    "  监听地址: " ++ config.web.addressText]

/-- The overview of a valid configuration. -/
def configTexts (verbose : Bool) (config : Config) : List String :=
  ["✓ 配置文件验证通过", "✓ 找到 " ++ toString config.probes.length ++ " 个探针配置"]
    ++ (if verbose then settingTexts config else [])
    ++ probeTable config

end CommandLine

end Vitals
