import MetricScript.Value.Coerce
import MetricScript.Number.Binary
import MetricScript.Table

/-!
# Binding arguments to parameters

A call names its arguments.  Every named argument must be a parameter of the method, and a
single argument may go unnamed when the method has exactly one parameter.  Each argument is
brought to the kind of its parameter; of two arguments for one parameter the later counts.
-/

namespace MetricScript

/-- Brings an argument to the kind of its parameter. -/
def ArgKind.coerce : ArgKind → Value → Except Fault Value
  | .string, value => .ok (.string value.text)
  | .numeric, value => value.toNumber.map .number
  | .boolean, value => value.toBoolean.map .boolean
  | .numericArray, value => value.toNumbers.map fun numbers => .array (numbers.map .number)
  | .array, .array items => .ok (.array items)
  | .array, other => .error (.typeMismatch "an array" other.text)
  | .map, .map entries => .ok (.map entries)
  | .map, other => .error (.typeMismatch "a map" other.text)
  | .any, value => .ok value

/-- The arguments of a call of `function`, bound to parameters. -/
structure Arguments where
  function : String
  values : Table Value

namespace Arguments

/-- The fault of an argument that is needed and not there. -/
def missing (arguments : Arguments) (name : String) : Fault :=
  .missingArgument arguments.function name

/-- The fault of an argument that cannot be used. -/
def invalid (arguments : Arguments) (name reason : String) : Fault :=
  .invalidArgument arguments.function name reason

def get? (arguments : Arguments) (name : String) : Option Value :=
  Table.get? name arguments.values

/-- The argument bound to a parameter, which must be there. -/
def value (arguments : Arguments) (name : String) : Except Fault Value :=
  match arguments.get? name with
  | some value => .ok value
  | none => .error (arguments.missing name)

def string? (arguments : Arguments) (name : String) : Option String :=
  match arguments.get? name with
  | some (.string value) => some value
  | _ => none

def string (arguments : Arguments) (name : String) : Except Fault String :=
  match arguments.string? name with
  | some value => .ok value
  | none => .error (arguments.missing name)

def number? (arguments : Arguments) (name : String) : Option Float :=
  match arguments.get? name with
  | some (.number value) => some value
  | _ => none

def number (arguments : Arguments) (name : String) : Except Fault Float :=
  match arguments.number? name with
  | some value => .ok value
  | none => .error (arguments.missing name)

def boolean? (arguments : Arguments) (name : String) : Option Bool :=
  match arguments.get? name with
  | some (.boolean value) => some value
  | _ => none

def map? (arguments : Arguments) (name : String) : Option (Table Value) :=
  match arguments.get? name with
  | some (.map entries) => some entries
  | _ => none

def map (arguments : Arguments) (name : String) : Except Fault (Table Value) :=
  match arguments.map? name with
  | some entries => .ok entries
  | none => .error (arguments.missing name)

def numbers (arguments : Arguments) (name : String) : Except Fault (List Float) := do
  (← arguments.value name).toNumbers

/-- A numeric argument as a whole count, which may not be negative. -/
def count (arguments : Arguments) (name : String) : Except Fault Nat := do
  let number ← arguments.number name
  if number < 0.0 || !number.isFinite then
    .error (arguments.invalid name
      ("expected a non-negative count, got " ++ Number.text number))
  else .ok (Number.toCount number)

end Arguments

/-- The parameter that an argument is for; `sole` says that it is the only argument. -/
def selectParam (function : String) (params : List Param) (sole : Bool) :
    Option String → Except Fault Param
  | some name =>
      match params.find? (·.name = name) with
      | some param => .ok param
      | none => .error (.unexpectedArgument function name)
  | none =>
      match params, sole with
      | [only], true => .ok only
      | _, _ => .error (.unnamedArgument function)

/-- Binds the arguments one after the other. -/
def bindEach (function : String) (params : List Param) (sole : Bool) (values : Table Value) :
    List (Option String × Value) → Except Fault (Table Value)
  | [] => .ok values
  | (name, value) :: rest => do
      let param ← selectParam function params sole name
      match param.kind.coerce value with
      | .error fault => .error (.invalidArgument function param.name fault.message)
      | .ok coerced => bindEach function params sole (Table.insert param.name coerced values) rest

/-- Binds the arguments of a call to the parameters of the function. -/
def bindArguments (function : String) (params : List Param)
    (arguments : List (Option String × Value)) : Except Fault Arguments := do
  let values ← bindEach function params (arguments.length = 1) [] arguments
  match params.find? fun param => param.required && !Table.contains param.name values with
  | some param => .error (.missingArgument function param.name)
  | none => .ok ⟨function, values⟩

end MetricScript
