import MetricScript.CommandLine.Words
import MetricScript.Json.Read
import MetricScript.Series.Interval
import MetricScript.Text.Classes
import MetricScript.Value.Document

/-!
# Requests

What the program can be asked to do, and how a request is read from the words of a command
line.  The log options may stand at any level, where those of an inner level count more.
Some options can also be given by the environment, which counts less than the words.
-/

namespace MetricScript.CommandLine

/-- How a script is to be run. -/
structure RunOptions where
  script : Option String := none
  /-- The arguments of the script, the latest first. -/
  arguments : List (String × Value) := []
  stateFile : Option String := none
  /-- The seconds that one run may take. -/
  timeout : Option Nat := none
  /-- The pause between repeated runs. -/
  every : Option Duration := none
  /-- How often a repeated script is run. -/
  times : Option Nat := none
  pretty : Bool := false

/-- What the program is asked to do. -/
inductive Task where
  | run (options : RunOptions)
  | check (script : Option String)
  | tokens (script : Option String)
  | showSettings
  | setStateFile (path : String)

structure LogOptions where
  level : Option String := none
  file : Option String := none
deriving DecidableEq

structure Request where
  logging : LogOptions
  task : Task

/-- Puts a value in a place that may be filled once only. -/
def once {α : Type} (present : Option α) (value : α) : Except Early (Option α) :=
  match present with
  | none => .ok (some value)
  | some _ => .error .misuse

/-- A path, which is never empty. -/
def readPath (text : String) : Except Early String :=
  if text.isEmpty then .error .misuse else .ok text

/-- A number of 64 bits, with or without a plus sign. -/
def readCount (text : String) : Except Early Nat :=
  match Number.unsigned? text.toList with
  | some value => if value ≤ Number.maxCount then .ok value else .error .misuse
  | none => .error .misuse

def readDuration (text : String) : Except Early Duration :=
  match Duration.read text with
  | .ok duration => .ok duration
  | .error _ => .error .misuse

/-- An argument for the script: a name, an equals sign and a JSON document; a text that is
no document is taken as a string. -/
def readArgument (text : String) : Except Early (String × Value) :=
  let name := Text.trim (String.ofList (text.toList.takeWhile (· ≠ '=')))
  match text.toList.dropWhile (· ≠ '=') with
  | [] => .error .misuse
  | _ :: rest =>
      let raw := String.ofList rest
      if name.isEmpty then .error .misuse
      else
        match Json.read? raw with
        | some document => .ok (name, .ofJson document)
        | none => .ok (name, .string raw)

/-- What is read at one level: its log options and what belongs to its command. -/
structure Level (α : Type) where
  logging : LogOptions := {}
  own : α

namespace Level

variable {α : Type}

def setLogLevel (text : String) (level : Level α) : Except Early (Level α) := do
  return { level with logging.level := ← once level.logging.level text }

def setLogFile (text : String) (level : Level α) : Except Early (Level α) := do
  let path ← readPath text
  return { level with logging.file := ← once level.logging.file path }

/-- The option as one on the part that belongs to the command. -/
def ofOwn : Entry α → Entry (Level α)
  | .alone apply => .alone fun level => do return { level with own := ← apply level.own }
  | .valued apply =>
      .valued fun text level => do return { level with own := ← apply text level.own }

/-- The grammar of a level: the options of every level and those of the command. -/
def grammar (long? : String → Option (Entry α)) (short? : Char → Option (Entry α))
    (operand : String → α → Except Early α) (isCommand : String → Bool) : Grammar (Level α) where
  long?
    | "log-level" => some (.valued setLogLevel)
    | "log-file" => some (.valued setLogFile)
    | "help" => some (.alone fun _ => .error .help)
    | name => (long? name).map ofOwn
  short?
    | 'h' => some (.alone fun _ => .error .help)
    | letter => (short? letter).map ofOwn
  operand := fun word level => do return { level with own := ← operand word level.own }
  isCommand

end Level

/-- The log options of an inner level over those of an outer one. -/
def LogOptions.orElse (inner outer : LogOptions) : LogOptions :=
  { level := inner.level.or outer.level, file := inner.file.or outer.file }

namespace RunOptions

def long? : String → Option (Entry RunOptions)
  | "arg" => some (.valued fun text options => do
      return { options with arguments := (← readArgument text) :: options.arguments })
  | "state" => some (.valued fun text options => do
      return { options with stateFile := ← once options.stateFile (← readPath text) })
  | "timeout" => some (.valued fun text options => do
      return { options with timeout := ← once options.timeout (← readCount text) })
  | "every" => some (.valued fun text options => do
      return { options with every := ← once options.every (← readDuration text) })
  | "times" => some (.valued fun text options => do
      return { options with times := ← once options.times (← readCount text) })
  | "pretty" => some (.alone fun options =>
      if options.pretty then .error .misuse else .ok { options with pretty := true })
  | _ => none

def short? : Char → Option (Entry RunOptions)
  | 'a' => long? "arg"
  | 's' => long? "state"
  | 't' => long? "timeout"
  | _ => none

def setScript (word : String) (options : RunOptions) : Except Early RunOptions := do
  return { options with script := ← once options.script (← readPath word) }

/-- Fills in what the environment says and checks that the options fit together. -/
def complete (environment : String → Option String) (options : RunOptions) :
    Except Early RunOptions := do
  let stateFile ←
    match options.stateFile, environment "ASL_STATE" with
    | none, some text => (readPath text).map some
    | given, _ => pure given
  let timeout ←
    match options.timeout, environment "ASL_TIMEOUT" with
    | none, some text => (readCount text).map some
    | given, _ => pure given
  if options.times.isSome && options.every.isNone then .error .misuse
  else return { options with stateFile, timeout }

end RunOptions

/-- The grammar of a command with at most one operand, which is a path. -/
def pathGrammar : Grammar (Level (Option String)) :=
  Level.grammar (fun _ => none) (fun _ => none)
    (fun word present => do once present (← readPath word)) (fun _ => false)

/-- The grammar of a level that only has commands, with further options. -/
def commandGrammar (long? : String → Option (Entry Unit)) (short? : Char → Option (Entry Unit))
    (names : List String) : Grammar (Level Unit) :=
  Level.grammar long? short? (fun _ _ => .error .misuse) (fun word => names.contains word)

/-- Words that ask for help on a command. -/
def readHelp (names : List String) (words : List String) : Early :=
  match words with
  | [] => .help
  | [name] => if names.contains name then .help else .misuse
  | ["config", action] =>
      if names.contains "config" && ["show", "set-state", "help"].contains action then .help
      else .misuse
  | _ => .misuse

def readSettingsTask (words : List String) : Except Early (LogOptions × Task) := do
  let names := ["show", "set-state", "help"]
  let (level, rest) ←
    (commandGrammar (fun _ => none) (fun _ => none) names).read { own := () } words
  match rest with
  | "show" :: more =>
      let grammar := Level.grammar (fun _ => none) (fun _ => none)
        (fun _ (_ : Unit) => .error .misuse) (fun _ => false)
      let (inner, _) ← grammar.read { own := () } more
      return (inner.logging.orElse level.logging, .showSettings)
  | "set-state" :: more =>
      let (inner, _) ← pathGrammar.read { own := none } more
      match inner.own with
      | some path => return (inner.logging.orElse level.logging, .setStateFile path)
      | none => .error .misuse
  | "help" :: more => .error (readHelp names more)
  | _ => .error .misuse

def readTask (environment : String → Option String) (name : String) (words : List String) :
    Except Early (LogOptions × Task) := do
  match name with
  | "run" =>
      let grammar := Level.grammar RunOptions.long? RunOptions.short? RunOptions.setScript
        (fun _ => false)
      let (level, _) ← grammar.read { own := {} } words
      return (level.logging, .run (← level.own.complete environment))
  | "check" =>
      let (level, _) ← pathGrammar.read { own := none } words
      return (level.logging, .check level.own)
  | "tokens" =>
      let (level, _) ← pathGrammar.read { own := none } words
      return (level.logging, .tokens level.own)
  | "config" => readSettingsTask words
  | _ => .error .misuse

/-- Reads the request of a command line; `environment` looks up variables. -/
def Request.read (environment : String → Option String) (words : List String) :
    Except Early Request := do
  let names := ["run", "check", "tokens", "config", "help"]
  let version : Entry Unit := .alone fun _ => .error .version
  let grammar := commandGrammar (fun name => if name = "version" then some version else none)
    (fun letter => if letter = 'V' then some version else none) names
  let (level, rest) ← grammar.read { own := () } words
  match rest with
  | [] => .error .misuse
  | "help" :: more => .error (readHelp names more)
  | name :: more =>
      let (inner, task) ← readTask environment name more
      let given := inner.orElse level.logging
      return { logging := { given with level := given.level.or (environment "ASL_LOG") }, task }

end MetricScript.CommandLine
