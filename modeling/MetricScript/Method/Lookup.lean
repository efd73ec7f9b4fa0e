import MetricScript.Value.Coerce
import MetricScript.Number.Binary

/-!
# Properties of values

A property of a value is one of its methods, bound to the value, or a part of a sample or
of an aggregate.
-/

namespace MetricScript

/-- A part of a sample. -/
def Point.property? (point : Point) : String → Option Value
  | "value" => some (.number point.value)
  | "timestamp" => some (.number (Number.ofInt64 point.timestamp))
  | _ => none

def pointValues (points : List Point) : Value :=
  .array (points.map fun point => .number point.value)

/-- A part of each of some samples. -/
def pointsProperty? (points : List Point) : String → Option Value
  | "values" => some (pointValues points)
  | "timestamps" =>
      some (.array (points.map fun point => .number (Number.ofInt64 point.timestamp)))
  | _ => none

/-- A method of a value, bound to it.  `origin` names the variable that the value was read
from. -/
def boundMethod? (value : Value) (name : String) (origin : Option String) :
    Option BoundMethod :=
  match value with
  | .handle .global => (GlobalMethod.lookup? name).map .ofGlobal
  | .handle .storage => (StorageMethod.lookup? name).map .ofStorage
  | .handle (.counter counter) => (CounterMethod.lookup? name).map (.ofCounter counter)
  | .handle (.series series) => (SeriesMethod.lookup? name).map (.ofSeries series)
  | .string text => (StringMethod.lookup? name).map (.ofString text)
  | .array items => (ArrayMethod.lookup? name).map (.ofArray items)
  | .map entries => (MapMethod.lookup? name).map (.ofMap entries origin)
  | _ => none

def Value.property (value : Value) (name : String) (origin : Option String) :
    Except Fault Value :=
  let found :=
    match value with
    | .handle (.point point) => point.property? name
    | .handle (.aggregate points) => pointsProperty? points name
    | other => (boundMethod? other name origin).map fun bound => .handle (.method bound)
  match found with
  | some result => .ok result
  | none => .error (.unknownProperty value.text name)

end MetricScript
