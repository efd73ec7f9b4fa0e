import MetricScript.Value.Coerce
import MetricScript.Script.Expr

/-!
# Operators

What the operators give for plain data.  Arithmetic and order work on numbers, the logical
operators on truth values, and any two values can be compared for equality.
-/

namespace MetricScript

/-- Both operands as numbers; the left one is looked at first. -/
def bothNumbers (left right : Value) : Except Fault (Float × Float) := do
  let leftNumber ← left.toNumber
  let rightNumber ← right.toNumber
  return (leftNumber, rightNumber)

/-- Both operands as truth values; the left one is looked at first. -/
def bothBooleans (left right : Value) : Except Fault (Bool × Bool) := do
  let leftTruth ← left.toBoolean
  let rightTruth ← right.toBoolean
  return (leftTruth, rightTruth)

/-- Combines two numbers into a number. -/
def arithmetic (combine : Float → Float → Float) (left right : Value) : Except Fault Value := do
  let (leftNumber, rightNumber) ← bothNumbers left right
  return .number (combine leftNumber rightNumber)

/-- Compares two numbers. -/
def comparison (holds : Float → Float → Bool) (left right : Value) : Except Fault Value := do
  let (leftNumber, rightNumber) ← bothNumbers left right
  return .boolean (holds leftNumber rightNumber)

/-- Divides, but never by zero of either sign. -/
def quotient (left right : Value) : Except Fault Value := do
  let (leftNumber, rightNumber) ← bothNumbers left right
  if rightNumber == 0.0 then .error .divideByZero
  else return .number (leftNumber / rightNumber)

/-- Combines two truth values. -/
def logical (combine : Bool → Bool → Bool) (left right : Value) : Except Fault Value := do
  let (leftTruth, rightTruth) ← bothBooleans left right
  return .boolean (combine leftTruth rightTruth)

def BinaryOperator.apply (operator : BinaryOperator) (left right : Value) :
    Except Fault Value :=
  match operator with
  | .add => arithmetic (· + ·) left right
  | .subtract => arithmetic (· - ·) left right
  | .multiply => arithmetic (· * ·) left right
  | .divide => quotient left right
  | .equal => .ok (.boolean (left.equals right))
  | .notEqual => .ok (.boolean (!left.equals right))
  | .less => comparison (· < ·) left right
  | .lessEqual => comparison (· ≤ ·) left right
  | .greater => comparison (· > ·) left right
  | .greaterEqual => comparison (· ≥ ·) left right
  | .and => logical (· && ·) left right
  | .or => logical (· || ·) left right

def UnaryOperator.apply (operator : UnaryOperator) (operand : Value) : Except Fault Value :=
  match operator with
  | .negate => operand.toNumber.map fun number => .number (-number)
  | .plus => operand.toNumber.map .number
  | .not => operand.toBoolean.map fun truth => .boolean (!truth)

end MetricScript
