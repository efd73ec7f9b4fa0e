import MetricScript.Run.Calls
import MetricScript.Run.Operators
import MetricScript.Run.Resolve

/-!
# Evaluation of expressions

Operands are always evaluated, also those of `&&` and `||`, from left to right, and the
arguments of a call before its target.  The items of literals and the arguments of calls
are plain data: handles in them are replaced by what they stand for.  A fault is reported
at the expression whose value could not be used.
-/

namespace MetricScript

open RunM

variable {m : Type → Type} [Monad m]

def Literal.value : Literal → Value
  | .null => .null
  | .boolean value => .boolean value
  | .number value => .number value
  | .string value => .string value

/-- Reports the faults of an action at a place. -/
def reported {α : Type} (place : Position) (action : RunM m Fault α) :
    RunM m RuntimeError α :=
  mapError (fun fault => ⟨fault, place⟩) action

def valueOf (name : String) : RunM m Fault Value := do
  match Table.get? name (← current).bindings with
  | some value => return value
  | none => throw (.unknownVariable name)

/-- Calls a value; `shown` is the text of the expression that it came from. -/
def Value.call (provider : Provider m) (target : Value) (shown : String)
    (arguments : List (Option String × Value)) : RunM m Fault Value :=
  match target with
  | .handle (.method bound) => bound.call provider arguments
  | _ => throw (.notCallable shown)

namespace Expr

/-- The variable that an expression is. -/
def variableName? : Expr → Option String
  | var _ name => some name
  | _ => none

mutual

/-- The value of an expression, which may be a handle. -/
def evaluate (provider : Provider m) : Expr → RunM m RuntimeError Value
  | literal _ value => return value.value
  | array _ items => do return .array (← evaluateItems provider items)
  | map _ entries => do return .map (Table.ofList (← evaluateEntries provider entries))
  | var place name => reported place (valueOf name)
  | binary place operator left right => do
      let leftValue ← left.evaluate provider
      let rightValue ← right.evaluate provider
      reported place do
        let leftData ← leftValue.resolve provider
        let rightData ← rightValue.resolve provider
        settle (operator.apply leftData rightData)
  | unary place operator operand => do
      let value ← operand.evaluate provider
      reported place do settle (operator.apply (← value.resolve provider))
  | property _ target name => do
      let value ← target.evaluate provider
      reported target.position (settle (value.property name target.variableName?))
  | call _ target arguments => do
      let values ← evaluateArguments provider arguments
      let value ← target.evaluate provider
      reported target.position (value.call provider target.text values)
  | global _ => return .handle .global
  | storage _ => return .handle .storage
termination_by structural expression => expression

def evaluateItems (provider : Provider m) : List Expr → RunM m RuntimeError (List Value)
  | [] => return []
  | item :: rest => do
      let value ← item.evaluate provider
      let first ← reported item.position (value.resolve provider)
      let others ← evaluateItems provider rest
      return first :: others
termination_by structural items => items

def evaluateEntries (provider : Provider m) :
    List (String × Expr) → RunM m RuntimeError (List (String × Value))
  | [] => return []
  | (key, item) :: rest => do
      let value ← item.evaluate provider
      let first ← reported item.position (value.resolve provider)
      let others ← evaluateEntries provider rest
      return (key, first) :: others
termination_by structural entries => entries

def evaluateArguments (provider : Provider m) :
    List (Option String × Expr) → RunM m RuntimeError (List (Option String × Value))
  | [] => return []
  | (name, item) :: rest => do
      let value ← item.evaluate provider
      let first ← reported item.position (value.resolve provider)
      let others ← evaluateArguments provider rest
      return (name, first) :: others
termination_by structural arguments => arguments

end

/-- The data of an expression. -/
def data (provider : Provider m) (expression : Expr) : RunM m RuntimeError Value := do
  let value ← expression.evaluate provider
  reported expression.position (value.resolve provider)

/-- The truth value of a condition. -/
def holds (provider : Provider m) (condition : Expr) : RunM m RuntimeError Bool := do
  let value ← condition.data provider
  reported condition.position (settle value.toBoolean)

end Expr

end MetricScript
