import MetricScript.Json.Read

/-!
# Records in JSON texts

A record with named parts is written as an object, or as an array of its parts in their
order.  Entries of the object that name no part are passed over: only their form has to be
that of JSON.  A part that is given twice makes the whole record unreadable.
-/

namespace MetricScript.Json.Source

/-- The entry of an object with a given name, if there is one; two of them are refused. -/
def sole? (name : String) (entries : List (String × Source)) : Option (Option Source) :=
  match entries.filter (·.1 = name) with
  | [] => some none
  | [(_, value)] => some (some value)
  | _ => none

/-- The entries of an object with their keys read. -/
def entries? : Source → Option (List (String × Source))
  | object entries => entries.mapM fun entry => do return (← stringValue? entry.1, entry.2)
  | _ => none

def parts? (names : List String) : Source → Option (List (Option Source))
  | array items =>
      if items.length ≤ names.length then
        some (items.map some ++ List.replicate (names.length - items.length) none)
      else none
  | record => do
      let entries ← record.entries?
      names.mapM fun name => sole? name entries

/-- A table whose values are read one by one; of two entries with one key the later
counts. -/
def table? {α : Type} (read : Source → Option α) (source : Source) : Option (Table α) := do
  let entries ← source.entries?
  let pairs ← entries.mapM fun entry => do return (entry.1, ← read entry.2)
  return Table.ofList pairs

/-- A list whose items are read one by one. -/
def list? {α : Type} (read : Source → Option α) : Source → Option (List α)
  | array items => items.mapM read
  | _ => none

def text? : Source → Option String
  | string parts => stringValue? parts
  | _ => none

/-- An integer between two bounds. -/
def integer? (least greatest : Int) : Source → Option Int
  | numeral value => do
      let number ← value.integer?
      guard (least ≤ number && number ≤ greatest)
      return number
  | _ => none

/-- A number, with or without a fraction. -/
def number? : Source → Option Float
  | numeral value =>
      match value.toJson? with
      | some (.integer whole) => some (Float.ofInt whole)
      | some (.number real) => some real
      | _ => none
  | _ => none

/-- What may be left out or given as null. -/
def optional? {α : Type} (read : Source → Option α) : Option Source → Option (Option α)
  | none | some null => some none
  | some source => (read source).map some

end MetricScript.Json.Source
