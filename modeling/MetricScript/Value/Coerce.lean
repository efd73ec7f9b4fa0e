import MetricScript.Value.Basic
import MetricScript.Fault
import MetricScript.Number.Decimal

/-!
# Conversions

How operators and arguments bring a value to a number, a truth value or a list of numbers,
and when two values count as equal.  Handles are never converted: one that arrives here
is reported like any other value of the wrong type.
-/

namespace MetricScript.Value

/-- Numbers, and strings that spell one. -/
def toNumber : Value → Except Fault Float
  | number value => .ok value
  | string value =>
      match Number.read? value with
      | some spelled => .ok spelled
      | none => .error (.invalidNumber value)
  | other => .error (.invalidNumber other.text)

/-- Truth values, numbers that differ from zero, strings that spell such a number, and
other strings that are not empty. -/
def toBoolean : Value → Except Fault Bool
  | boolean value => .ok value
  | number value => .ok (value != 0.0)
  | string value =>
      match Number.read? value with
      | some spelled => .ok (spelled != 0.0)
      | none => .ok (!value.isEmpty)
  | other => .error (.invalidBoolean other.text)

/-- The numbers of a list of values, the first of which has the given index. -/
def numbersFrom (index : Nat) : List Value → Except Fault (List Float)
  | [] => .ok []
  | item :: rest =>
      match item.toNumber with
      | .error fault => .error (.nonNumericElement index fault.message)
      | .ok first => (numbersFrom (index + 1) rest).map (first :: ·)

def toNumbers : Value → Except Fault (List Float)
  | array items => numbersFrom 0 items
  | other => .error (.typeMismatch "an array" other.text)

def isBoolean : Value → Bool
  | boolean _ => true
  | _ => false

/-- Equality of the language: truth values equal truth values, values that can be brought
to numbers are compared as numbers, and all others by structure. -/
def equals (left right : Value) : Bool :=
  if left.isBoolean || right.isBoolean then left.same right
  else match left.toNumber, right.toNumber with
    | .ok leftNumber, .ok rightNumber => leftNumber == rightNumber
    | _, _ => left.same right

end MetricScript.Value
