import MetricScript.CommandLine.Log
import MetricScript.Provider.Memory
import MetricScript.Series.Interval

/-!
# The machine around the program

What the program needs of the machine that it runs on: its input, files, a place to print,
a log and the means to wait.  A workplace is such a machine as plain data.
-/

namespace MetricScript.CommandLine

/-- What the program needs of its machine. -/
structure Host (n : Type → Type) where
  /-- Everything on the standard input. -/
  input : n String
  readFile : String → n (Except FileError String)
  /-- Writes a text to a file. -/
  writeFile : String → String → n (Except FileError Unit)
  /-- Makes a folder and those around it. -/
  makeFolders : String → n (Except FileError Unit)
  /-- Opens a log file. -/
  openLog : String → n (Except FileError Unit)
  /-- Logs a message to a file, or else among the complaints. -/
  log : Option String → String → n Unit
  print : String → n Unit
  complain : String → n Unit
  pause : Duration → n Unit
  now : n Int64
  send : HttpRequest → n (Except ProviderError HttpResponse)
  /-- The id of the next run. -/
  newRun : n String

namespace Host

variable {n : Type → Type} [Monad n]

/-- The machine as the surroundings of a store. -/
def surroundings (host : Host n) : Surroundings n where
  now := host.now
  send := host.send
  readFile := fun path => do
    match ← host.readFile path with
    | .ok text => return .ok text
    | .error error => return .error (.file (path ++ ": " ++ error.message))

end Host

/-- A machine as data: its scene, what stands on the input, and what was printed. -/
structure Workplace where
  scene : Scene
  input : String := ""
  printed : String := ""
  complaints : String := ""

namespace Workplace

def onDisk {α : Type} (action : StateM Disk α) : StateM Workplace α := do
  let workplace ← get
  let (result, files) := action.run workplace.scene.files
  set { workplace with scene.files := files }
  return result

def inScene {α : Type} (step : StateM Scene α) : StateM Workplace α := do
  let workplace ← get
  let (result, scene) := step.run workplace.scene
  set { workplace with scene }
  return result

def complain (text : String) : StateM Workplace Unit :=
  modify fun workplace => { workplace with complaints := workplace.complaints ++ text }

/-- A workplace as a machine.  Waiting takes no time, and all runs have the same id. -/
def host : Host (StateM Workplace) where
  input := return (← get).input
  readFile := fun path => return (← get).scene.files.read path
  writeFile := fun path text => onDisk (Disk.write path text)
  makeFolders := fun path => onDisk (Disk.makeFolders path)
  openLog := fun path => onDisk (Disk.append path "")
  log := fun
    | some path, message => do
        let _ ← onDisk (Disk.append path (LogLine.ofMessage message))
        return
    | none, message => complain (LogLine.ofMessage message)
  print := fun text => modify fun workplace =>
    { workplace with printed := workplace.printed ++ text }
  complain
  pause := fun _ => return
  now := inScene Scene.surroundings.now
  send := fun request => inScene (Scene.send request)
  newRun := return runId 0

end Workplace

end MetricScript.CommandLine
