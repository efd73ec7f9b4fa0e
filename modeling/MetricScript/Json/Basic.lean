import MetricScript.Number.Layout

/-!
# JSON documents

Documents and their two printed forms, compact and indented by two blanks.  Integers that
came from a text stay apart from other numbers, so that they are printed as they were
read.  Objects keep the order of their entries; those that are read from a text are tables.
-/

namespace MetricScript

inductive Json where
  | null
  | boolean (value : Bool)
  | integer (value : Int)
  | number (value : Float)
  | string (value : String)
  | array (items : List Json)
  | object (entries : List (String × Json))

namespace Json

/-- The two hexadecimal digits of a small code point. -/
def hexByte (code : Nat) : List Char :=
  [Nat.digitChar (code / 16), Nat.digitChar (code % 16)]

def escapeChar (c : Char) : List Char :=
  match c with
  | '"' => ['\\', '"']
  | '\\' => ['\\', '\\']
  | '\n' => ['\\', 'n']
  | '\r' => ['\\', 'r']
  | '\t' => ['\\', 't']
  | _ =>
      if c.toNat = 8 then ['\\', 'b']
      else if c.toNat = 12 then ['\\', 'f']
      else if c.toNat < 32 then '\\' :: 'u' :: '0' :: '0' :: hexByte c.toNat
      else [c]

/-- A printed string, with its quotes. -/
def stringText (value : String) : String :=
  String.ofList ('"' :: value.toList.flatMap escapeChar ++ ['"'])

mutual

def compact : Json → String
  | null => "null"
  | boolean value => if value then "true" else "false"
  | integer value => toString value
  | number value => Number.jsonText value
  | string value => stringText value
  | array items => "[" ++ ",".intercalate (compactItems items) ++ "]"
  | object entries => "\x7b" ++ ",".intercalate (compactEntries entries) ++ "\x7d"
termination_by structural json => json

def compactItems : List Json → List String
  | [] => []
  | item :: rest => item.compact :: compactItems rest
termination_by structural items => items

def compactEntries : List (String × Json) → List String
  | [] => []
  | (key, value) :: rest => (stringText key ++ ":" ++ value.compact) :: compactEntries rest
termination_by structural entries => entries

end

/-- A new line with the indentation of the given depth. -/
def newLine (depth : Nat) : String :=
  "\n" ++ String.ofList (List.replicate (2 * depth) ' ')

/-- Lines between brackets, one deeper than the brackets themselves. -/
def bracketed (opening closing : String) (depth : Nat) (lines : List String) : String :=
  if lines.isEmpty then opening ++ closing
  else
    opening ++ newLine (depth + 1) ++ ("," ++ newLine (depth + 1)).intercalate lines ++
      newLine depth ++ closing

mutual

/-- The indented form of a document that stands at a depth. -/
def indented (depth : Nat) : Json → String
  | null => "null"
  | boolean value => if value then "true" else "false"
  | integer value => toString value
  | number value => Number.jsonText value
  | string value => stringText value
  | array items => bracketed "[" "]" depth (indentedItems (depth + 1) items)
  | object entries => bracketed "\x7b" "\x7d" depth (indentedEntries (depth + 1) entries)
termination_by structural json => json

def indentedItems (depth : Nat) : List Json → List String
  | [] => []
  | item :: rest => item.indented depth :: indentedItems depth rest
termination_by structural items => items

def indentedEntries (depth : Nat) : List (String × Json) → List String
  | [] => []
  | (key, value) :: rest =>
      (stringText key ++ ": " ++ value.indented depth) :: indentedEntries depth rest
termination_by structural entries => entries

end

/-- The form with one entry to a line. -/
def pretty (json : Json) : String := json.indented 0

end Json

end MetricScript
