import MetricScript.CommandLine.Host
import MetricScript.CommandLine.LogFilter
import MetricScript.CommandLine.Request
import MetricScript.CommandLine.Settings
import MetricScript.Provider.Saved
import MetricScript.Run.Exec
import MetricScript.Script.Parse

/-!
# Performing requests

How a request is carried out on a machine.  A script is read and parsed before its state
file is looked at, and the state file is written after every run, also after one that
failed.  The result of the whole program is its exit code.
-/

namespace MetricScript.CommandLine

/-- Why a request could not be carried out. -/
inductive Failure where
  | syntaxErrors (errors : List SyntaxError)
  /-- The tokens of the script never end. -/
  | endlessScript
  | runtime (error : RuntimeError)
  | timedOut (seconds : Nat)
  | file (error : FileError)
  | invalidState (path : String)

namespace Failure

def message : Failure → String
  | syntaxErrors errors => SyntaxError.joined errors
  | endlessScript => "The tokens of the script never end"
  | runtime error => "Runtime error: " ++ error.message
  | timedOut seconds => "Script timed out after " ++ toString seconds ++ "s"
  | file error => "I/O error: " ++ error.message
  | invalidState path => "Invalid state file " ++ path ++ ": not a saved state"

def exitCode : Failure → Nat
  | endlessScript => 1
  | syntaxErrors _ => 2
  | runtime _ => 3
  | file _ | invalidState _ => 4
  | timedOut _ => 5

end Failure

/-- The exit code of command lines that are no request. -/
def misuseCode : Nat := 2

/-- The exit code when nothing can be logged, because the log file cannot be opened or the
filter is torn. -/
def brokenLogCode : Nat := 101

def versionText : String := "asl 0.1.0"

def usageText : String := "Usage: asl [OPTIONS] <run|check|tokens|config>"

/-- A step of a request, which may fail. -/
abbrev Step (n : Type → Type) (α : Type) := ExceptT Failure n α

variable {n : Type → Type} [Monad n]

def asking {α : Type} (question : n α) : Step n α := ExceptT.lift question

/-- Asks the machine for something that has to do with files. -/
def withFile {α : Type} (question : n (Except FileError α)) : Step n α := do
  match ← asking question with
  | .ok answer => return answer
  | .error error => throw (.file error)

def isInput (path : String) : Bool :=
  !Path.isAbsolute path && Path.components path = ["-"]

def readSource (host : Host n) : Option String → Step n String
  | none => asking host.input
  | some path => if isInput path then asking host.input else withFile (host.readFile path)

def readScript (host : Host n) (path : Option String) : Step n Script := do
  match parse (← readSource host path) with
  | .script commands => return commands
  | .errors errors => throw (.syntaxErrors errors)
  | .endless => throw .endlessScript

/-- The store in a state file; a file that is not there holds the empty one. -/
def loadState (host : Host n) (path : String) : Step n Store := do
  match ← asking (host.readFile path) with
  | .error .notFound => return {}
  | .error error => throw (.file error)
  | .ok text =>
      match Store.readSaved? text with
      | some store => return store
      | none => throw (.invalidState path)

def saveState (host : Host n) (path : String) (store : Store) : Step n Unit := do
  let folder := (Path.parent? path).getD ""
  if folder ≠ "" then withFile (host.makeFolders folder)
  withFile (host.writeFile path store.savedText)

/-- The passes of a loop that fit a second. -/
def passesPerSecond : Nat := 2000000

/-- The passes of a loop that are made before the time is looked at. -/
def passesAtOnce : Nat := 10000

/-- The passes after which a loop counts as endless, if there is a time limit at all. -/
def passesAtMost : Nat := 4000000

/-- The passes that each loop of a script is allowed: those that fit the time limit, or
more than any run can make. -/
def allowance : Option Nat → Nat
  | none => Nat.pow 2 62
  | some seconds => passesAtOnce + min (passesPerSecond * seconds) passesAtMost

/-- Where the messages of a script are logged, and which of them. -/
structure Log where
  file : Option String
  filter : LogFilter

/-- Logs the messages of a run, if the filter lets them pass. -/
def Log.write (log : Log) (host : Host n) (id : String) (messages : List String) : n Unit :=
  if log.filter.allowsScripts id then messages.forM (host.log log.file) else pure ()

/-- Runs a script once and logs its messages. -/
def runOnce (host : Host n) (log : Log) (options : RunOptions) (script : Script) (store : Store) :
    n (Ending × Store) := do
  let arguments := Table.ofList options.arguments.reverse
  let id ← host.newRun
  let ((ending, run), after) ←
    (Script.run script (Store.provider host.surroundings) (allowance options.timeout)
      arguments).run store
  log.write host id run.logs
  return (ending, after)

/-- The text that is printed for an output table. -/
def outputText (pretty : Bool) (output : Table Value) : String :=
  let document := (Value.map output).printed
  (if pretty then document.pretty else document.compact) ++ "\n"

def RunOptions.rounds (options : RunOptions) : Nat :=
  match options.every, options.times with
  | none, _ => 1
  | some _, some times => max times 1
  | some _, none => Nat.pow 2 62

/-- Runs a script a number of times, each time on the store that the last run left. -/
def runRounds (host : Host n) (log : Log) (options : RunOptions) (script : Script) :
    (rounds : Nat) → Store → Step n Unit
  | 0, _ => return
  | rounds + 1, store => do
      let (ending, after) ← asking (runOnce host log options script store)
      if let some path := options.stateFile then saveState host path after
      match ending with
      | .failed error => throw (.runtime error)
      | .exhausted => throw (.timedOut (options.timeout.getD 0))
      | .finished output =>
          asking (host.print (outputText options.pretty output))
          match rounds, options.every with
          | _ + 1, some duration => asking (host.pause duration)
          | _, _ => pure ()
          runRounds host log options script rounds after

def runScript (host : Host n) (log : Log) (options : RunOptions) : Step n Unit := do
  let script ← readScript host options.script
  let store ←
    match options.stateFile with
    | some path => loadState host path
    | none => pure {}
  runRounds host log options script options.rounds store

/-- A text filled up with blanks on the right. -/
def padded (width : Nat) (text : String) : String :=
  text ++ String.ofList (List.replicate (width - text.length) ' ')

/-- The line that is printed for a token. -/
def tokenLine (token : Token) : String :=
  padded 8 token.position.text ++ " " ++ padded 24 token.kind.name ++ " " ++
    Text.quote token.text ++ "\n"

def saveSettings (host : Host n) (folder : Option String) (settings : Settings) : Step n Unit := do
  match folder with
  | none => throw (.file (.other "could not determine home directory"))
  | some folder =>
      withFile (host.makeFolders folder)
      withFile (host.writeFile (Settings.fileIn folder) settings.toJson.pretty)

def performTask (host : Host n) (folder : Option String) (settings : Settings) (log : Log) :
    Task → Step n Unit
  | .run options =>
      runScript host log
        { options with
          stateFile := options.stateFile.or settings.stateFile
          timeout := options.timeout.or settings.timeout }
  | .check script => do
      let commands ← readScript host script
      asking (host.print ("OK: " ++ toString commands.length ++ " commands\n"))
  | .tokens script => do
      match tokens? (← readSource host script) with
      | some tokens => asking (tokens.forM fun token => host.print (tokenLine token))
      | none => throw .endlessScript
  | .showSettings => do
      let place :=
        match folder with
        | some folder => Settings.fileIn folder
        | none => "No home directory; using defaults"
      asking (host.complain (place ++ "\n"))
      asking (host.print (settings.toJson.pretty ++ "\n"))
  | .setStateFile path => do
      saveSettings host folder { settings with stateFile := some path }
      asking (host.complain "Saved configuration\n")

def loadSettings (host : Host n) : Option String → n Settings
  | none => return {}
  | some folder => do
      match ← host.readFile (Settings.fileIn folder) with
      | .ok text => return Settings.read text
      | .error _ => return {}

/-- Opens the log file, making the folders around it.  If these cannot be made, messages
are logged among the complaints; nothing is returned if the file itself cannot be opened. -/
def openLog (host : Host n) : Option String → n (Option (Option String))
  | none => return some none
  | some path => do
      let parent := (Path.parent? path).getD ""
      let folder := if parent = "" then "." else parent
      match ← host.makeFolders folder with
      | .error error =>
          host.complain ("Warning: cannot create log directory " ++ folder ++ ": " ++
            error.message ++ "; logging to stderr\n")
          return some none
      | .ok () =>
          let file := Path.join folder ((Path.fileName? path).getD "asl.log")
          match ← host.openLog file with
          | .ok () => return some (some file)
          | .error _ => return none

/-- Carries out a request and tells the exit code. -/
def performRequest (host : Host n) (environment : String → Option String) (request : Request) :
    n Nat := do
  let folder := Settings.folder? environment
  let settings ← loadSettings host folder
  match LogFilter.choose request.logging.level (environment "RUST_LOG") settings.logLevel with
  | .error _ =>
      host.complain "The log filter cannot be read\n"
      return brokenLogCode
  | .ok filter =>
      match ← openLog host request.logging.file with
      | none =>
          host.complain "The log file cannot be opened\n"
          return brokenLogCode
      | some file =>
          match ← (performTask host folder settings { file, filter } request.task).run with
          | .ok () => return 0
          | .error failure =>
              host.complain ("Error: " ++ failure.message ++ "\n")
              return failure.exitCode

/-- Does what the words of a command line ask for and tells the exit code. -/
def perform (host : Host n) (environment : String → Option String) (words : List String) :
    n Nat := do
  match Request.read environment words with
  | .ok request => performRequest host environment request
  | .error .help =>
      host.print (usageText ++ "\n")
      return 0
  | .error .version =>
      host.print (versionText ++ "\n")
      return 0
  | .error .misuse =>
      host.complain (usageText ++ "\n")
      return misuseCode

end MetricScript.CommandLine
