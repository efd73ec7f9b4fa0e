import MetricScript.Provider.Store
import MetricScript.Json.Record
import MetricScript.Text.Classes

/-!
# Saved stores

The form in which a store is kept between runs: a JSON record of its counters, series and
stored maps.  A text of blanks alone stands for the empty store.
-/

namespace MetricScript

def Point.toJson (point : Point) : Json :=
  .object [("timestamp", .integer point.timestamp.toInt), ("value", .number point.value)]

def readInt64? (source : Json.Source) : Option Int64 :=
  (source.integer? Int64.minValue.toInt Int64.maxValue.toInt).map Int64.ofInt

/-- The sample of a JSON text; both of its parts must be there. -/
def Point.ofSource? (source : Json.Source) : Option Point := do
  match ← source.parts? ["timestamp", "value"] with
  | [some timestamp, some value] => return ⟨← readInt64? timestamp, ← value.number?⟩
  | _ => none

namespace Store

def toJson (store : Store) : Json :=
  .object
    [("counters", .object (Table.mapValues (fun value => .integer value.toInt) store.counters)),
      ("series", .object (Table.mapValues (fun points => .array (points.map Point.toJson))
        store.series)),
      ("storage", .object (Table.mapValues .object store.storage))]

/-- The text in which a store is saved. -/
def savedText (store : Store) : String := store.toJson.pretty

/-- A stored map of a JSON text, which stands two levels deep in the store. -/
def storedOfSource? (source : Json.Source) : Option (Table Json) :=
  match Json.ofSource? (Json.depthLimit - 2) source with
  | some (.object entries) => some entries
  | _ => none

/-- A part of the store, which is empty where it is left out. -/
def partOfSource? {α : Type} (read : Json.Source → Option α) :
    Option Json.Source → Option (Table α)
  | none => some []
  | some source => source.table? read

def ofSource? (source : Json.Source) : Option Store := do
  match ← source.parts? ["counters", "series", "storage"] with
  | [counters, series, storage] =>
      return {
        counters := ← partOfSource? readInt64? counters
        series := ← partOfSource? (Json.Source.list? Point.ofSource?) series
        storage := ← partOfSource? storedOfSource? storage }
  | _ => none

def readSaved? (text : String) : Option Store :=
  if (Text.trim text).isEmpty then some {}
  else (Json.Source.read? text).bind ofSource?

end Store

end MetricScript
