import MetricScript.Files.Path
import MetricScript.Table

/-!
# Files and folders

The files of a machine as a tree, and the folder in which a program works.  A path is walked
name by name from the root or from this folder: a step needs a folder to start from, two
points lead back to the enclosing folder, and a missing or overlong name stops the walk.
What is found on the way decides how an operation fails, so the steps are checked in their
order.
-/

namespace MetricScript

/-- Why a file cannot be read or written. -/
inductive FileError where
  | notFound
  | isFolder
  | notFolder
  | alreadyThere
  | nameTooLong
  /-- The path has the character with code zero. -/
  | zeroInPath
  /-- Any other reason, in the words of the machine. -/
  | other (reason : String)
deriving DecidableEq

def FileError.message : FileError → String
  | notFound => "No such file or directory (os error 2)"
  | isFolder => "Is a directory (os error 21)"
  | notFolder => "Not a directory (os error 20)"
  | alreadyThere => "File exists (os error 17)"
  | nameTooLong => "File name too long (os error 36)"
  | zeroInPath => "file name contained an unexpected NUL byte"
  | other reason => reason

inductive Node where
  | file (text : String)
  | folder (entries : List (String × Node))

namespace Node

/-- What is found at the end of a list of names. -/
def get? : List String → Node → Option Node
  | [], node => some node
  | name :: rest, .folder entries => (Table.get? name entries).bind (get? rest)
  | _ :: _, .file _ => none

/-- Puts a new node at the end of a list of names, making the folders on the way. -/
def put : Node → List String → (new : Node) → Node
  | _, [], new => new
  | .folder entries, name :: rest, new =>
      let child := (Table.get? name entries).getD (.folder [])
      .folder (Table.insert name (child.put rest new) entries)
  | .file _, name :: rest, new => .folder [(name, put (.folder []) rest new)]

/-- What was put somewhere is found there. -/
theorem get?_put_self (node : Node) (names : List String) (new : Node) :
    (node.put names new).get? names = some new := by
  induction names generalizing node with
  | nil => cases node <;> simp [put, get?]
  | cons name rest ih =>
    cases node with
    | file _ => simp [put, get?, Table.get?, ih]
    | folder entries => simp [put, get?, Table.get?_insert_self, ih]

mutual

/-- The files of a node, by the path to each, in the order of the folders. -/
def files (path : String) : Node → List (String × String)
  | .file text => [(path, text)]
  | .folder entries => filesIn path entries
termination_by structural node => node

def filesIn (path : String) : List (String × Node) → List (String × String)
  | [] => []
  | (name, node) :: rest => node.files (Path.join path name) ++ filesIn path rest
termination_by structural entries => entries

end

end Node

/-- The files of a machine. -/
structure Disk where
  root : Node
  /-- The names from the root to the folder in which the program works. -/
  here : List String

namespace Disk

/-- The bytes that a name may have. -/
def nameLimit : Nat := 255

/-- The bytes that a path may have. -/
def pathLimit : Nat := 4095

/-- Goes on from a place by the steps of a path; the result is the list of names from the
root to where they lead. -/
def walk (root : Node) (place : List String) : List String → Except FileError (List String)
  | [] => .ok place
  | step :: rest =>
      match root.get? place with
      | some (.folder entries) =>
          if step = "." then walk root place rest
          else if step = ".." then walk root place.dropLast rest
          else if nameLimit < step.utf8ByteSize then .error .nameTooLong
          else
            match Table.get? step entries with
            | some _ => walk root (place ++ [step]) rest
            | none => .error .notFound
      | some (.file _) => .error .notFolder
      | none => .error .notFound

/-- The steps of a path that may be walked at all. -/
def steps (path : String) : Except FileError (List String) :=
  if path.toList.any (·.toNat = 0) then .error .zeroInPath
  else if path = "" then .error .notFound
  else if pathLimit < path.utf8ByteSize then .error .nameTooLong
  else .ok (Path.steps path)

/-- Where the walk of a path starts. -/
def origin (disk : Disk) (path : String) : List String :=
  if Path.isAbsolute path then [] else disk.here

def find (disk : Disk) (path : String) : Except FileError Node := do
  let place ← walk disk.root (disk.origin path) (← steps path)
  match disk.root.get? place with
  | some (.folder entries) => .ok (.folder entries)
  | some (.file text) => if Path.endsInSlash path then .error .notFolder else .ok (.file text)
  | none => .error .notFound

def isFolder (disk : Disk) (path : String) : Bool :=
  match disk.find path with
  | .ok (.folder _) => true
  | _ => false

def read (disk : Disk) (path : String) : Except FileError String := do
  match ← disk.find path with
  | .folder _ => .error .isFolder
  | .file text => .ok text

/-- Where something can be made: the folder, and the name in it, which is missing if the path
ends in a step that is no name. -/
structure Site where
  folder : List String
  name : Option String

def site (disk : Disk) (path : String) : Except FileError Site := do
  let steps ← steps path
  let folder ← walk disk.root (disk.origin path) steps.dropLast
  match disk.root.get? folder, steps.getLast? with
  | some (.folder _), some step =>
      .ok { folder, name := if step = "." || step = ".." then none else some step }
  | some (.folder _), none => .ok { folder, name := none }
  | _, _ => .error .notFolder

/-- The names at which a file can be written, and the text that is there now. -/
def siteOfFile (disk : Disk) (path : String) : Except FileError (List String × String) := do
  match ← disk.site path with
  | { name := none, .. } => .error .isFolder
  | { folder, name := some name } =>
      if Path.endsInSlash path then .error .isFolder
      else if nameLimit < name.utf8ByteSize then .error .nameTooLong
      else
        match disk.root.get? (folder ++ [name]) with
        | some (.folder _) => .error .isFolder
        | some (.file text) => .ok (folder ++ [name], text)
        | none => .ok (folder ++ [name], "")

/-- Writes a file, which replaces what was there. -/
def write (path text : String) : StateM Disk (Except FileError Unit) := do
  let disk ← get
  match disk.siteOfFile path with
  | .ok (names, _) =>
      set { disk with root := disk.root.put names (.file text) }
      return .ok ()
  | .error error => return .error error

/-- Adds to a file, which is made if it is not there. -/
def append (path text : String) : StateM Disk (Except FileError Unit) := do
  match (← get).siteOfFile path with
  | .ok (_, present) => write path (present ++ text)
  | .error error => return .error error

def makeFolder (path : String) : StateM Disk (Except FileError Unit) := do
  let disk ← get
  match disk.site path with
  | .error error => return .error error
  | .ok { name := none, .. } => return .error .alreadyThere
  | .ok { folder, name := some name } =>
      if nameLimit < name.utf8ByteSize then return .error .nameTooLong
      else if (disk.root.get? (folder ++ [name])).isSome then return .error .alreadyThere
      else
        set { disk with root := disk.root.put (folder ++ [name]) (.folder []) }
        return .ok ()

def ensureFolder (path : String) : StateM Disk (Except FileError Unit) := do
  match ← makeFolder path with
  | .ok () => return .ok ()
  | .error error => if (← get).isFolder path then return .ok () else return .error error

/-- Makes sure that there are folders at the first of the paths, where each lies in the next
one.  The others are made only if they are missed, and stay if a later one cannot be made. -/
def ensureFolders : List String → StateM Disk (Except FileError Unit)
  | [] => return .ok ()
  | path :: outer => do
      if path = "" then return .ok ()
      match ← ensureFolder path with
      | .error .notFound =>
          match ← ensureFolders outer with
          | .ok () => ensureFolder path
          | .error error => return .error error
      | result => return result

/-- Makes a folder and all folders around it that are not there yet. -/
def makeFolders (path : String) : StateM Disk (Except FileError Unit) :=
  ensureFolders (Path.withParents path (Path.components path).length)

/-- The files below the folder in which the program works. -/
def files (disk : Disk) : List (String × String) :=
  match disk.root.get? disk.here with
  | some node => node.files ""
  | none => []

/-- A machine with nothing but an empty folder to work in. -/
def empty : Disk where
  root := .folder [("work", .folder [])]
  here := ["work"]

/-- A machine with the given files in the folder to work in. -/
def ofFiles (files : List (String × String)) : Disk :=
  { empty with
    root := files.foldl
      (fun root (path, text) => root.put (empty.here ++ Path.steps path) (.file text))
      empty.root }

end Disk

end MetricScript
