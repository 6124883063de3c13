import Vitals.Environment
import Vitals.Text.Reader

/-!
# Command lines

A command line is a list of words: general switches, the name of a command, and the switches of
that command. A switch has a long name behind two hyphens, most have a letter behind one, and some
take a value, in the same word or in the next one.

The words are read from left to right. The value of a switch is looked at when the words go on to
the next switch that is known, or end; so a word that is not known is reported before a bad value
just in front of it. Two of the general switches can be set by variables instead.
-/

namespace Vitals.CommandLine

/-- Why the words are not a command line, or make the program only print something. -/
inductive Refusal where
  | help
  | version
  /-- There are no words at all, or none that say anything. -/
  | nothing
  | missingCommand
  | unknownCommand
  | unknownWord
  /-- A value is missing, empty where it must not be, or not one of those that are possible. -/
  | impossibleValue
  /-- A value is no number of its range. -/
  | malformedValue
  /-- A switch that takes no value has one. -/
  | surplusValue
  | repeatedSwitch
  deriving DecidableEq, Repr

/-- The exit code of a program that is refused its command line. -/
def Refusal.exitCode : Refusal → Nat
  | .help | .version => 0
  | _ => 2

inductive Switch where
  | config
  | logLevel
  | bind
  | port
  | format
  | probe
  | verbose
  | help
  | version
  deriving DecidableEq, Repr

namespace Switch

def longName : Switch → String
  | .config => "config"
  | .logLevel => "log-level"
  | .bind => "bind"
  | .port => "port"
  | .format => "format"
  | .probe => "probe"
  | .verbose => "verbose"
  | .help => "help"
  | .version => "version"

def letter? : Switch → Option Char
  | .config => some 'c'
  | .logLevel => some 'l'
  | .port => some 'p'
  | .format => some 'f'
  | .verbose => some 'v'
  | .help => some 'h'
  | .version => some 'V'
  | .bind | .probe => none

def takesValue : Switch → Bool
  | .verbose | .help | .version => false
  | _ => true

end Switch

/-- The log levels that a command line can name. -/
def logLevelNames : List String := ["debug", "info", "warn", "error"]

def formatNames : List String := ["text", "json"]

/-- A number of 16 bits in decimal digits behind an optional sign. -/
def portNumber? (text : String) : Option UInt16 :=
  let (negative, digits) :=
    match text.toList with
    | '-' :: digits => (true, digits)
    | '+' :: digits => (false, digits)
    | digits => (false, digits)
  let number := Text.ofDigits digits
  if digits.isEmpty ∨ !digits.all Text.isDigit then none
  else if number < UInt16.size ∧ (!negative ∨ number = 0) then some number.toUInt16
  else none

/-- Why a switch cannot have a value. -/
def Switch.fault? (switch : Switch) (value : String) : Option Refusal :=
  match switch with
  | .config => if value = "" then some .impossibleValue else none
  | .logLevel => if value ∈ logLevelNames then none else some .impossibleValue
  | .format => if value ∈ formatNames then none else some .impossibleValue
  | .port => if (portNumber? value).isSome then none else some .malformedValue
  | _ => none

/-! ## Levels -/

def commandNames : List String := ["serve", "check", "validate", "version"]

/-- A part of a command line: the words in front of a command, or those behind it. -/
inductive Level where
  | general
  | command (name : String)
  deriving DecidableEq, Repr

namespace Level

def switches : Level → List Switch
  | .general => [.config, .logLevel, .help, .version]
  | .command "serve" => [.bind, .port, .help]
  | .command "check" => [.format, .probe, .help]
  | .command "validate" => [.verbose, .help]
  | .command "version" => [.format, .help]
  | .command _ => [.help]

def long? (level : Level) (name : String) : Option Switch :=
  level.switches.find? (·.longName == name)

def short? (level : Level) (letter : Char) : Option Switch :=
  level.switches.find? (·.letter? == some letter)

/-- A word is the name of a command, where one may come. -/
def isCommand (level : Level) (word : String) : Bool :=
  level == .general && (commandNames.contains word || word == "help")

/-- Why a word that is no switch and no value is refused. -/
def refusalOf (level : Level) (afterHyphens : Bool) (word : String) : Refusal :=
  if level = .general ∧ !(afterHyphens && level.isCommand word) then .unknownCommand
  else .unknownWord

end Level

/-! ## Reading words -/

/-- The switches read so far with their values, and the one whose value is not looked at yet. -/
structure Reading where
  settled : List (Switch × String)
  pending : Option (Switch × Option String)

namespace Reading

def start : Reading := ⟨[], none⟩

def value? (reading : Reading) (switch : Switch) : Option String :=
  reading.settled.lookup switch

/-- The last switch still waits for its value. -/
def isWaiting (reading : Reading) : Bool :=
  match reading.pending with
  | some (_, none) => true
  | _ => false

/-- Settles a switch that was not there before and can have the value. -/
def accept (reading : Reading) (switch : Switch) (value : String) : Except Refusal Reading :=
  if (reading.value? switch).isSome then .error .repeatedSwitch
  else match switch.fault? value with
    | some refusal => .error refusal
    | none => .ok ⟨reading.settled ++ [(switch, value)], none⟩

def settle (reading : Reading) : Except Refusal Reading :=
  match reading.pending with
  | none => .ok reading
  | some (_, none) => .error .impossibleValue
  | some (switch, some value) => accept { reading with pending := none } switch value

/-- Reads a switch that takes a value, which may be in the same word. -/
def readValued (reading : Reading) (switch : Switch) (attached : Option String) :
    Except Refusal Reading := do
  let settled ← reading.settle
  match attached with
  | some value => settled.accept switch value
  | none => return { settled with pending := some (switch, none) }

/-- Reads a switch that takes no value. -/
def readFlag (reading : Reading) (switch : Switch) : Except Refusal Reading := do
  let settled ← reading.settle
  match switch with
  | .help => throw .help
  | .version => throw .version
  | switch => settled.accept switch ""

/-- Reads a word behind its two hyphens. -/
def readLong (level : Level) (reading : Reading) (word : List Char) : Except Refusal Reading :=
  let name := word.takeWhile (· != '=')
  let attached :=
    match word.drop name.length with
    | [] => none
    | _ :: value => some (String.ofList value)
  match level.long? (String.ofList name), attached with
  | none, _ => .error .unknownWord
  | some switch, attached =>
      if switch.takesValue then reading.readValued switch attached
      else if attached.isSome then .error .surplusValue
      else reading.readFlag switch

/-- Reads the letters of a word behind its hyphen; the letters behind one that takes a value are
the value, without an equals sign in front. -/
def readShort (level : Level) (reading : Reading) : List Char → Except Refusal Reading
  | [] => .ok reading
  | letter :: rest =>
      match level.short? letter with
      | none => .error .unknownWord
      | some switch =>
          if switch.takesValue then
            reading.readValued switch <|
              match rest with
              | [] => none
              | '=' :: value => some (String.ofList value)
              | value => some (String.ofList value)
          else do readShort level (← reading.readFlag switch) rest

end Reading

/-- The outcome of one level: what was read, and the command that follows with its words. -/
structure Read where
  reading : Reading
  command : Option (String × List String)

/-- The words behind `help` must be names of commands; then it is the help that is asked for. -/
def helpRefusal : List String → Refusal
  | [] | ["help"] => .help
  | [name] => if commandNames.contains name then .help else .unknownCommand
  | _ => .unknownCommand

/-- Reads the words of a level. Behind two hyphens alone no word is a switch. -/
def readWords (level : Level) : Reading → List String → Except Refusal Read
  | reading, [] => do return ⟨← reading.settle, none⟩
  | reading, word :: rest =>
      if !reading.isWaiting && level.isCommand word then
        if word = "help" then .error (helpRefusal rest)
        else .ok ⟨reading, some (word, rest)⟩
      else match word.toList with
        | ['-', '-'] =>
            match rest with
            | [] => do return ⟨← reading.settle, none⟩
            | next :: _ => .error (level.refusalOf true next)
        | '-' :: '-' :: long => do readWords level (← reading.readLong level long) rest
        | '-' :: letter :: letters => do
            readWords level (← reading.readShort level (letter :: letters)) rest
        | _ =>
            match reading.pending with
            | some (switch, none) =>
                readWords level { reading with pending := some (switch, some word) } rest
            | _ => .error (level.refusalOf false word)

/-! ## Arguments -/

/-- How results are printed. -/
inductive OutputFormat where
  | text
  | json
  deriving DecidableEq, Repr

/-- What the program is to do. -/
inductive Command where
  | serve (bind : Option String) (port : Option UInt16)
  | check (format : OutputFormat) (probe : Option String)
  | validate (verbose : Bool)
  | version (format : OutputFormat)
  deriving DecidableEq, Repr

/-- What a command line says. -/
structure Arguments where
  config : Option String
  logLevel : Option String
  command : Command
  deriving DecidableEq, Repr

/-- How command lines are written: what the words and the variables say, or why they say nothing. -/
abbrev Grammar := Environment → List String → Except Refusal Arguments

/-- The output format that was read; text unless another one is named. -/
def Reading.format (reading : Reading) : OutputFormat :=
  if reading.value? .format = some "json" then .json else .text

def Command.ofReading? (name : String) (reading : Reading) : Option Command :=
  match name with
  | "serve" => some (.serve (reading.value? .bind) ((reading.value? .port).bind portNumber?))
  | "check" => some (.check reading.format (reading.value? .probe))
  | "validate" => some (.validate (reading.value? .verbose).isSome)
  | "version" => some (.version reading.format)
  | _ => none

/-- The variable that can stand for a general switch. -/
def Switch.variableName? : Switch → Option String
  | .config => some "VITALS_CONFIG"
  | .logLevel => some "VITALS_LOG_LEVEL"
  | _ => none

/-- What was read, with a switch taken from its variable if it was not read. -/
def Reading.withVariable (environment : Environment) (reading : Reading) (switch : Switch) :
    Except Refusal Reading :=
  match reading.value? switch, switch.variableName? with
  | none, some name =>
      match environment.shown? name with
      | none => .ok reading
      | some value => reading.accept switch value
  | _, _ => .ok reading

/-- What a list of words and the variables say, in the grammar that is described above. -/
def Arguments.ofWords : Grammar := fun environment words => do
  let general ← readWords .general .start words
  let command ←
    match general.command with
    | none => pure none
    | some (name, rest) =>
        let inner ← readWords (.command name) .start rest
        pure (Command.ofReading? name inner.reading)
  let reading ← general.reading.settle
  let reading ← reading.withVariable environment .config
  let reading ← reading.withVariable environment .logLevel
  match command with
  | some command => return ⟨reading.value? .config, reading.value? .logLevel, command⟩
  | none => throw (if reading.settled.isEmpty then .nothing else .missingCommand)

end Vitals.CommandLine
