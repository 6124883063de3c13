import Vitals.Options

/-!
# Errors

Why a run fails: the configuration, a registration, the file system, a document, or anything
else. A failing probe is no error; its execution has a result.
-/

namespace Vitals

/-- Why a configuration cannot be used. -/
inductive ConfigError where
  | unparsable (reason : String)
  | invalid (reason : String)
  | missingFile (path : String)
  /-- A variable that the configuration refers to is not set. -/
  | unsetVariable (name : String)
  deriving DecidableEq, Repr

def ConfigError.message : ConfigError → String
  | .unparsable reason => "配置文件解析失败: " ++ reason
  | .invalid reason => "配置验证失败: " ++ reason
  | .missingFile path => "配置文件不存在: " ++ path
  | .unsetVariable name => "环境变量替换失败: " ++ name

/-- Why a run fails. -/
inductive Error where
  | config (error : ConfigError)
  | registry (rejection : Rejection)
  | io (reason : String)
  | json (reason : String)
  | other (reason : String)
  deriving DecidableEq, Repr

def Error.message : Error → String
  | .config error => "配置错误: " ++ error.message
  | .registry rejection => "注册表错误: " ++ rejection.message
  | .io reason => "IO错误: " ++ reason
  | .json reason => "JSON错误: " ++ reason
  | .other reason => "其他错误: " ++ reason

end Vitals
