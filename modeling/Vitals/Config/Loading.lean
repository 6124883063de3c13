import Vitals.Config.Data
import Vitals.Config.Substitution
import Vitals.Config.Validation
import Vitals.Data.Toml.Printer
import Vitals.Environment
import Vitals.Error
import Vitals.FileTree

/-!
# Loading of configurations

From a text to a configuration that can be used: variables are substituted, the document is read,
its tree is read, and the rules are checked. The first step that fails says why.
-/

namespace Vitals.Config

/-- Whether references to variables are replaced before a text is read. -/
inductive Substituting where
  | enabled
  | disabled
  deriving DecidableEq, Repr

/-- The text in which references to variables are replaced, if they are to be. -/
def prepare (substituting : Substituting) (environment : Environment) (content : String) :
    Except ConfigError String :=
  match substituting with
  | .disabled => .ok content
  | .enabled => (substitute environment.text? content).mapError .unsetVariable

/-- The configuration that a text writes, not validated. -/
def read (substituting : Substituting) (environment : Environment) (content : String) :
    Except ConfigError Config := do
  let prepared ← prepare substituting environment content
  match (Toml.read? prepared).bind (ofValue? .toml) with
  | some config => return config
  | none => throw (.unparsable "TOML解析失败")

/-- The configuration itself if it keeps all rules. -/
def validate (config : Config) : Except ConfigError Config :=
  match config.violation? with
  | some violation => .error (.invalid violation.message)
  | none => .ok config

/-- The valid configuration that a text writes. -/
def load (substituting : Substituting) (environment : Environment) (content : String) :
    Except ConfigError Config := do
  validate (← read substituting environment content)

def contentOf (files : FileTree) (path : String) : Except ConfigError String :=
  match files.read path with
  | .error error => .error (.unparsable ("读取文件失败: " ++ error.message))
  | .ok content =>
      match String.fromUTF8? content with
      | some text => .ok text
      | none => .error (.unparsable "读取文件失败: stream did not contain valid UTF-8")

/-- The valid configuration that a file writes. -/
def loadFile (substituting : Substituting) (environment : Environment) (files : FileTree)
    (path : String) : Except ConfigError Config := do
  if !files.has path then throw (.missingFile path)
  load substituting environment (← contentOf files path)

def joinPath (directory path : String) : String :=
  if directory.toList.getLast? = some '/' then directory ++ path else directory ++ "/" ++ path

def userDirectory (environment : Environment) : String :=
  match environment.shown? "XDG_CONFIG_HOME" with
  | some path =>
      if path.toList.head? = some '/' then path else joinPath environment.home ".config"
  | none => joinPath environment.home ".config"

/-- The file that is loaded when none is named: one in the working directory if it is there, else
one in the directory of the user. -/
def defaultPath (environment : Environment) (files : FileTree) : String :=
  let fileName := "vitals.toml"
  if files.has fileName then fileName
  else joinPath (joinPath (userDirectory environment) programName) fileName

/-- Whether a configuration is the same when it is written as a document and read again. -/
def survivesWriting (config : Config) : Bool :=
  match (Toml.render? config.toValue).bind Toml.read? |>.bind (ofValue? .toml) with
  | some again => again == config
  | none => false

end Vitals.Config
