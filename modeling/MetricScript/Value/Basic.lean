import MetricScript.Method.Catalog
import MetricScript.Text.Quoted
import MetricScript.Number.Layout

/-!
# Values

What an expression evaluates to: plain data, or a handle that stands for something outside
the script or for a method of a value.  Maps are kept ascending by key.
-/

namespace MetricScript

mutual

/-- Results of expressions. -/
inductive Value where
  | null
  | boolean (value : Bool)
  | number (value : Float)
  | string (value : String)
  | array (items : List Value)
  | map (entries : List (String × Value))
  | handle (handle : Handle)

/-- Values that are not plain data. -/
inductive Handle where
  | global
  | storage
  | counter (name : String)
  | series (name : String)
  | point (point : Point)
  | aggregate (points : List Point)
  | method (bound : BoundMethod)

/-- A method together with the value that it belongs to.  A map also remembers the
variable that it was read from. -/
inductive BoundMethod where
  | ofGlobal (method : GlobalMethod)
  | ofCounter (name : String) (method : CounterMethod)
  | ofSeries (name : String) (method : SeriesMethod)
  | ofStorage (method : StorageMethod)
  | ofString (text : String) (method : StringMethod)
  | ofArray (items : List Value) (method : ArrayMethod)
  | ofMap (entries : List (String × Value)) (origin : Option String) (method : MapMethod)

end

instance : Inhabited Value := ⟨.null⟩

namespace BoundMethod

def name : BoundMethod → String
  | ofGlobal method => method.name
  | ofCounter _ method => method.name
  | ofSeries _ method => method.name
  | ofStorage method => method.name
  | ofString _ method => method.name
  | ofArray _ method => method.name
  | ofMap _ _ method => method.name

def params : BoundMethod → List Param
  | ofGlobal method => method.params
  | ofCounter _ method => method.params
  | ofSeries _ method => method.params
  | ofStorage method => method.params
  | ofString _ method => method.params
  | ofArray _ method => method.params
  | ofMap _ _ method => method.params

end BoundMethod

namespace Handle

/-- What the type of the handle is called. -/
def typeName : Handle → String
  | global => "global"
  | storage => "storage"
  | counter _ => "counter"
  | series _ => "series"
  | point _ => "data point"
  | aggregate _ => "aggregate"
  | method _ => "function"

def text : Handle → String
  | global => "Global"
  | storage => "Storage"
  | counter name => "Counter(" ++ name ++ ")"
  | series name => "Series(" ++ name ++ ")"
  | point sample =>
      "DataPoint(" ++ toString sample.timestamp.toInt ++ ", " ++
        Number.text sample.value ++ ")"
  | aggregate points => "Aggregate(" ++ toString points.length ++ " points)"
  | method bound => bound.name ++ "()"

end Handle

namespace Value

/-- What the type of the value is called. -/
def typeName : Value → String
  | null => "null"
  | boolean _ => "boolean"
  | number _ => "number"
  | string _ => "string"
  | array _ => "array"
  | map _ => "map"
  | handle reference => reference.typeName

mutual

/-- The text of a value inside an array or a map. -/
def innerText : Value → String
  | null => "null"
  | boolean value => if value then "true" else "false"
  | number value => Number.text value
  | string value => Text.quote value
  | array items => "[" ++ ", ".intercalate (itemTexts items) ++ "]"
  | map entries => "\x7b" ++ ", ".intercalate (entryTexts entries) ++ "\x7d"
  | handle reference => reference.text
termination_by structural value => value

def itemTexts : List Value → List String
  | [] => []
  | item :: rest => item.innerText :: itemTexts rest
termination_by structural items => items

def entryTexts : List (String × Value) → List String
  | [] => []
  | (key, value) :: rest => (Text.quote key ++ ": " ++ value.innerText) :: entryTexts rest
termination_by structural entries => entries

end

/-- The text of a value: a string as it is, data with the strings in it quoted. -/
def text : Value → String
  | string value => value
  | value => value.innerText

mutual

/-- Two values have the same structure and equal parts, where numbers are compared as
numbers. -/
def same : Value → Value → Bool
  | null, null => true
  | boolean left, boolean right => left == right
  | number left, number right => left == right
  | string left, string right => left == right
  | array left, array right => sameItems left right
  | map left, map right => sameEntries left right
  | handle left, handle right => sameHandle left right
  | _, _ => false
termination_by structural left => left

def sameItems : List Value → List Value → Bool
  | [], [] => true
  | left :: lefts, right :: rights => same left right && sameItems lefts rights
  | _, _ => false
termination_by structural lefts => lefts

def sameEntries : List (String × Value) → List (String × Value) → Bool
  | [], [] => true
  | (leftKey, left) :: lefts, (rightKey, right) :: rights =>
      leftKey == rightKey && same left right && sameEntries lefts rights
  | _, _ => false
termination_by structural lefts => lefts

/-- The handles stand for the same thing. -/
def sameHandle : Handle → Handle → Bool
  | .global, .global => true
  | .storage, .storage => true
  | .counter left, .counter right => left == right
  | .series left, .series right => left == right
  | .point left, .point right => left.timestamp == right.timestamp && left.value == right.value
  | .aggregate left, .aggregate right =>
      left.length == right.length && (left.zip right).all fun pair =>
        pair.1.timestamp == pair.2.timestamp && pair.1.value == pair.2.value
  | .method left, .method right => sameMethod left right
  | _, _ => false
termination_by structural left => left

/-- The methods are the same and belong to the same values. -/
def sameMethod : BoundMethod → BoundMethod → Bool
  | .ofGlobal left, .ofGlobal right => left == right
  | .ofCounter leftName left, .ofCounter rightName right =>
      leftName == rightName && left == right
  | .ofSeries leftName left, .ofSeries rightName right => leftName == rightName && left == right
  | .ofStorage left, .ofStorage right => left == right
  | .ofString leftText left, .ofString rightText right => leftText == rightText && left == right
  | .ofArray leftItems left, .ofArray rightItems right =>
      sameItems leftItems rightItems && left == right
  | .ofMap leftEntries leftOrigin left, .ofMap rightEntries rightOrigin right =>
      sameEntries leftEntries rightEntries && leftOrigin == rightOrigin && left == right
  | _, _ => false
termination_by structural left => left

end

end Value

end MetricScript
