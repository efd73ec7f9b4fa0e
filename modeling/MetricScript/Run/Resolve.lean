import MetricScript.Run.Basic
import MetricScript.Method.Lookup

/-!
# From handles to data

Operators, literals, arguments and the output table only take plain data.  A counter
stands for its current value, a sample for its value and an aggregate for the array of its
values; the other handles stand for no data.
-/

namespace MetricScript

open RunM

variable {m : Type → Type} [Monad m]

/-- The data that a handle stands for. -/
def Handle.resolve (provider : Provider m) : Handle → RunM m Fault Value
  | .counter name => do
      let value ← perform provider ("counter(\"" ++ name ++ "\")") (.counterValue name)
      return .number (Number.ofInt64 value)
  | .point sample => return .number sample.value
  | .aggregate points => return pointValues points
  | reference => throw (.notEvaluable reference.text)

namespace Value

mutual

/-- The value with every handle in it replaced by its data. -/
def resolve (provider : Provider m) : Value → RunM m Fault Value
  | array items => do return array (← resolveItems provider items)
  | map entries => do return map (← resolveEntries provider entries)
  | handle reference => reference.resolve provider
  | null => return null
  | boolean value => return boolean value
  | number value => return number value
  | string value => return string value
termination_by structural value => value

def resolveItems (provider : Provider m) : List Value → RunM m Fault (List Value)
  | [] => return []
  | item :: rest => do
      let first ← item.resolve provider
      let others ← resolveItems provider rest
      return first :: others
termination_by structural items => items

def resolveEntries (provider : Provider m) :
    List (String × Value) → RunM m Fault (List (String × Value))
  | [] => return []
  | (key, value) :: rest => do
      let first ← value.resolve provider
      let others ← resolveEntries provider rest
      return (key, first) :: others
termination_by structural entries => entries

end

end Value

end MetricScript
