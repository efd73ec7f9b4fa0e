import MetricScript.Method.Binding
import MetricScript.Text.Split

/-!
# Methods of plain data

What the methods of strings and arrays give.  They look at nothing but the value and the
arguments of the call.  The deviation of an array is that of a whole population, unlike
the deviation of a series, which is that of a sample.
-/

namespace MetricScript

/-- The pieces of a text between the occurrences of a separator; the empty separator
stands between any two characters. -/
def splitText (text separator : String) : List String :=
  if separator.isEmpty then text.toList.map String.singleton
  else (Text.splitSeparator separator.toList 0 text.toList).map String.ofList

def StringMethod.apply (text : String) (arguments : Arguments) :
    StringMethod → Except Fault Value
  | .split => do
      let separator ← arguments.string "separator"
      return .array ((splitText text separator).map .string)
  | .toNumber => (Value.string text).toNumber.map .number

/-- The item at a place of an array; places are whole numbers and start from 0. -/
def itemAt (items : List Value) (index : Float) : Except Fault Value :=
  let found :=
    if index < 0.0 || !Number.isWhole index then none else items[Number.toCount index]?
  match found with
  | some item => .ok item
  | none => .error (.indexOutOfRange (Number.text index))

/-- The mean distance of the numbers from their mean, by squares. -/
def populationDeviation (numbers : List Float) : Float :=
  let size := countOf numbers
  (squaresOf (sumOf numbers / size) numbers / size).sqrt

/-- Makes one number of the numbers of an array; an array without items gives 0. -/
def summarize (summary : List Float → Float) (items : List Value) : Except Fault Value := do
  let numbers ← (Value.array items).toNumbers
  return .number (if numbers.isEmpty then 0.0 else summary numbers)

def ArrayMethod.apply (items : List Value) (arguments : Arguments) :
    ArrayMethod → Except Fault Value
  | .item => do itemAt items (← arguments.number "index")
  | .count => .ok (.number (countOf items))
  | .sum => summarize sumOf items
  | .min => summarize leastOf items
  | .max => summarize greatestOf items
  | .avg => summarize (fun numbers => sumOf numbers / countOf numbers) items
  | .stddev => summarize populationDeviation items

/-- A number lies more than three deviations from the mean of some data. -/
def isAnomaly (data : List Float) (value : Float) : Bool :=
  !data.isEmpty &&
    (3.0 * populationDeviation data < (value - sumOf data / countOf data).abs)

end MetricScript
