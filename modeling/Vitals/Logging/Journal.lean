import Vitals.FileTree
import Vitals.Logging.Filter

/-!
# The journal

Where the events of a program go. It is set up once, and what comes of that stands: a journal that
was set up keeps its settings, and one that could not be set up stays unusable. What happens before
it is set up is not written.
-/

namespace Vitals.Logging

/-- How a journal is to be kept. -/
structure Settings where
  verbosity : Verbosity
  /-- The file for the events; without one they go to the standard error output. -/
  file : Option String
  /-- Whether events are written as trees. -/
  json : Bool
  deriving DecidableEq, Repr

namespace Settings

/-- The settings for the level of a name, or why there is no such level. -/
def ofLevelName (name : String) (json : Bool) : Except String Settings :=
  match Verbosity.ofName? name with
  | some verbosity => .ok ⟨verbosity, none, json⟩
  | none => .error ("无效的日志级别: " ++ name)

/-- A character of a path between quotes. -/
def pathChar (c : Char) : String :=
  if c = '\'' then "\\'" else Text.quotedChar c

def describe (settings : Settings) : String :=
  let file :=
    match settings.file with
    | some path => "Some(\"" ++ String.join (path.toList.map pathChar) ++ "\")"
    | none => "None"
  "LogConfig \x7b level: " ++ settings.verbosity.titleLabel ++ ", file_path: " ++ file
    ++ ", json_format: " ++ toString settings.json ++ " \x7d"

/-- The event that reports the settings of a new journal. -/
def event (settings : Settings) : Event :=
  ⟨.debug, "vitals_registry::logging", "日志配置: " ++ settings.describe, []⟩

end Settings

inductive Journal where
  /-- It is not set up. -/
  | idle
  /-- It could not be set up. -/
  | unusable (settings : Settings) (reason : String)
  /-- It is set up, and has some events. -/
  | kept (settings : Settings) (filter : Filter) (events : List Event)
  deriving Inhabited

namespace Journal

/-- Someone tried to set the journal up. -/
def isSetUp : Journal → Bool
  | .idle => false
  | _ => true

def settings? : Journal → Option Settings
  | .idle => none
  | .unusable settings _ => some settings
  | .kept settings _ _ => some settings

def events : Journal → List Event
  | .kept _ _ events => events
  | _ => []

/-- The journal when an event has happened. -/
def write (journal : Journal) (event : Event) : Journal :=
  match journal with
  | .kept settings filter events =>
      if filter.allows event then .kept settings filter (events ++ [event]) else journal
  | journal => journal

/-- The journal without the events that were written so far. -/
def cleared : Journal → Journal
  | .kept settings filter _ => .kept settings filter []
  | journal => journal

/-- What comes of setting a journal up. -/
structure Setup where
  journal : Journal
  /-- The files afterwards: a file for events is new and empty. -/
  files : FileTree
  /-- Why the journal is unusable. -/
  fault : Option String

/-- The files when the one for the events is created, if there is to be one. -/
def createFile (settings : Settings) (files : FileTree) : Except FileError FileTree :=
  match settings.file with
  | some path => files.create path
  | none => .ok files

/-- Sets the journal up. Directives go before the verbosity of the settings. -/
def setUp (journal : Journal) (settings : Settings) (directives : String) (files : FileTree) :
    Setup :=
  match journal with
  | .idle =>
      match createFile settings files with
      | .ok files =>
          let journal := kept settings (.ofText settings.verbosity directives) []
          ⟨journal.write settings.event, files, none⟩
      | .error error =>
          let reason := "创建日志文件失败: " ++ error.message
          ⟨.unusable settings reason, files, some reason⟩
  | .unusable _ reason => ⟨journal, files, some ("日志系统之前初始化失败: " ++ reason)⟩
  | .kept _ _ _ => ⟨journal, files, none⟩

@[simp]
theorem events_write (settings : Settings) (filter : Filter) (events : List Event)
    (event : Event) :
    ((kept settings filter events).write event).events =
      events ++ [event].filter filter.allows := by
  by_cases allowed : filter.allows event
  · simp [write, Journal.events, allowed]
  · simp [write, Journal.events, allowed]

end Journal

end Vitals.Logging
