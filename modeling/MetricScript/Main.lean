import Std.Time.DateTime.Timestamp
import MetricScript.CommandLine.Perform

/-!
# The program

The command line on a real machine.  This layer only reads, writes and waits; what is read
and written is decided elsewhere.  There is no network here, so every request to another
host fails.
-/

namespace MetricScript.CommandLine

def fileErrorOf : IO.Error → FileError
  | .noFileOrDirectory _ _ _ => .notFound
  | .alreadyExists _ _ _ => .alreadyThere
  | .inappropriateType _ code _ => if code = 21 || code = -21 then .isFolder else .notFolder
  | .invalidArgument _ code reason =>
      if code = 36 || code = -36 then .nameTooLong else .other reason
  | error => .other (toString error)

def attempt {α : Type} (action : IO α) : IO (Except FileError α) := do
  try
    return .ok (← action)
  catch error =>
    return .error (fileErrorOf error)

partial def readToEnd (stream : IO.FS.Stream) (seen : String) : IO String := do
  let line ← stream.getLine
  if line.isEmpty then return seen else readToEnd stream (seen ++ line)

/-- Adds a text to a file, which is made if it is not there. -/
def append (path text : String) : IO Unit := do
  let file ← IO.FS.Handle.mk path .append
  file.putStr text

def realHost : Host IO where
  input := do readToEnd (← IO.getStdin) ""
  readFile := fun path => attempt (IO.FS.readFile path)
  writeFile := fun path text => attempt (IO.FS.writeFile path text)
  makeFolders := fun path => attempt (if path = "" then pure () else IO.FS.createDirAll path)
  openLog := fun path => attempt (append path "")
  log := fun path message => do
    match path with
    | some file => let _ ← attempt (append file (LogLine.ofMessage message))
    | none => IO.eprint (LogLine.ofMessage message)
  print := fun text => IO.print text
  complain := fun text => IO.eprint text
  pause := fun duration =>
    IO.sleep (UInt32.ofNat (1000 * duration.seconds + duration.nanoseconds / 1000000))
  now := do return Int64.ofInt (← Std.Time.Timestamp.now).toSecondsSinceUnixEpoch.val
  send := fun _ => return .error (.http "no HTTP transport configured")
  newRun := do return runId (← IO.rand 0 (Nat.pow 2 122 - 1))

/-- The variables of the environment that count. -/
def variableNames : List String :=
  ["ASL_HOME", "ASL_LOG", "ASL_STATE", "ASL_TIMEOUT", "HOME", "RUST_LOG"]

def readEnvironment : IO (Table String) := do
  let found ← variableNames.mapM fun name => do
    return (← IO.getEnv name).map fun value => (name, value)
  return Table.ofList (found.filterMap id)

end MetricScript.CommandLine

open MetricScript in
/-- Runs the program and returns its exit code. -/
def main (words : List String) : IO UInt32 := do
  let environment ← CommandLine.readEnvironment
  let code ← CommandLine.perform CommandLine.realHost (Table.get? · environment) words
  return UInt32.ofNat code
