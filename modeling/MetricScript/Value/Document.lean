import MetricScript.Value.Basic
import MetricScript.Fault
import MetricScript.Json.Basic

/-!
# Values and JSON documents

Plain data has a JSON form when all of its numbers are finite, and every JSON document is
the form of a value.  For printing there is a form of any value at all: handles show their
text and numbers that are not finite show nothing.
-/

namespace MetricScript.Value

mutual

/-- The JSON form of plain data; handles and numbers that are not finite have none. -/
def toJson : Value → Except Fault Json
  | null => .ok .null
  | boolean value => .ok (.boolean value)
  | number value =>
      if value.isFinite then .ok (.number value)
      else .error (.invalidNumber (Number.text value))
  | string value => .ok (.string value)
  | array items => (itemsToJson items).map .array
  | map entries => (entriesToJson entries).map .object
  | handle reference => .error (.notEvaluable reference.text)
termination_by structural value => value

def itemsToJson : List Value → Except Fault (List Json)
  | [] => .ok []
  | item :: rest => do
      let first ← item.toJson
      let others ← itemsToJson rest
      return first :: others
termination_by structural items => items

def entriesToJson : List (String × Value) → Except Fault (List (String × Json))
  | [] => .ok []
  | (key, value) :: rest => do
      let first ← value.toJson
      let others ← entriesToJson rest
      return (key, first) :: others
termination_by structural entries => entries

end

mutual

/-- The value that a JSON document stands for. -/
def ofJson : Json → Value
  | .null => null
  | .boolean value => boolean value
  | .integer value => number (Float.ofInt value)
  | .number value => number value
  | .string value => string value
  | .array items => array (ofJsonItems items)
  | .object entries => map (ofJsonEntries entries)
termination_by structural json => json

def ofJsonItems : List Json → List Value
  | [] => []
  | item :: rest => ofJson item :: ofJsonItems rest
termination_by structural items => items

def ofJsonEntries : List (String × Json) → List (String × Value)
  | [] => []
  | (key, value) :: rest => (key, ofJson value) :: ofJsonEntries rest
termination_by structural entries => entries

end

mutual

/-- The document that is printed for a value. -/
def printed : Value → Json
  | null => .null
  | boolean value => .boolean value
  | number value => .number value
  | string value => .string value
  | array items => .array (printedItems items)
  | map entries => .object (printedEntries entries)
  | handle reference => .string reference.text
termination_by structural value => value

def printedItems : List Value → List Json
  | [] => []
  | item :: rest => item.printed :: printedItems rest
termination_by structural items => items

def printedEntries : List (String × Value) → List (String × Json)
  | [] => []
  | (key, value) :: rest => (key, value.printed) :: printedEntries rest
termination_by structural entries => entries

end

end MetricScript.Value
