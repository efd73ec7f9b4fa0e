import MetricScript.Files.Path
import MetricScript.Json.Record
import MetricScript.Number.Binary

/-!
# Settings

What the program remembers between calls: a state file, a time limit and a log filter, each
of which may be missing.  A settings file that is not there or cannot be read counts as
one without settings.
-/

namespace MetricScript.CommandLine

structure Settings where
  stateFile : Option String := none
  timeout : Option Nat := none
  logLevel : Option String := none
deriving DecidableEq

namespace Settings

/-- The settings as a document; what is missing is left out. -/
def toJson (settings : Settings) : Json :=
  .object
    ((settings.stateFile.map fun path => ("state_file", Json.string path)).toList ++
      (settings.timeout.map fun seconds => ("timeout_secs", Json.integer seconds)).toList ++
      (settings.logLevel.map fun level => ("log_level", Json.string level)).toList)

def ofSource? (source : Json.Source) : Option Settings := do
  match ← source.parts? ["state_file", "timeout_secs", "log_level"] with
  | [stateFile, timeout, logLevel] =>
      return {
        stateFile := ← Json.Source.optional? Json.Source.text? stateFile
        timeout := ← Json.Source.optional?
          (fun source => (source.integer? 0 Number.maxCount).map Int.toNat) timeout
        logLevel := ← Json.Source.optional? Json.Source.text? logLevel }
  | _ => none

/-- Reads settings; a text that is none stands for no settings. -/
def read (text : String) : Settings := ((Json.Source.read? text).bind ofSource?).getD {}

/-- The folder of the settings file: the one that the environment names, or one in the
user's home. -/
def folder? (environment : String → Option String) : Option String :=
  match environment "ASL_HOME", environment "HOME" with
  | some folder, _ => some folder
  | none, some home => if home.isEmpty then none else some (Path.join home ".asl")
  | none, none => none

def fileIn (folder : String) : String := Path.join folder "config.json"

end Settings

end MetricScript.CommandLine
