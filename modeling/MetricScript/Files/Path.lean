import MetricScript.Text.Split

/-!
# Paths

Paths are texts with slashes.  The names between the slashes are walked one after the other
when a file is looked up, and there a point is a step that stays where it is.  For taking a
path apart into a folder and a name, points do not count, but for one at the very front.
-/

namespace MetricScript

namespace Path

/-- The pieces of a path between its slashes, without the empty ones. -/
def steps (text : String) : List String :=
  ((Text.splitMark '/' text.toList).map String.ofList).filter (· ≠ "")

def isAbsolute (text : String) : Bool := text.toList.head? = some '/'

/-- The path ends in a slash, so it only fits a folder. -/
def endsInSlash (text : String) : Bool := text.toList.getLast? = some '/'

/-- The pieces that count when a path is taken apart. -/
def components (text : String) : List String :=
  match isAbsolute text, steps text with
  | false, "." :: rest => "." :: rest.filter (· ≠ ".")
  | _, all => all.filter (· ≠ ".")

/-- The path of the folder that a path lies in.  It is empty for a path of one piece, and
missing for one of none. -/
def parent? (text : String) : Option String :=
  match components text with
  | [] => none
  | pieces => some ((if isAbsolute text then "/" else "") ++ "/".intercalate pieces.dropLast)

/-- A path and those of the folders around it, the nearest first.  There are no more of
these than the path has pieces. -/
def withParents (text : String) : (pieces : Nat) → List String
  | 0 => [text]
  | pieces + 1 =>
      match parent? text with
      | some parent => text :: withParents parent pieces
      | none => [text]

/-- The name at the end of a path, which is missing where the path leads back or nowhere. -/
def fileName? (text : String) : Option String :=
  match (components text).getLast? with
  | some name => if name = ".." || name = "." then none else some name
  | none => none

def join (folder name : String) : String :=
  if folder = "" then name
  else if endsInSlash folder then folder ++ name
  else folder ++ "/" ++ name

end Path

end MetricScript
