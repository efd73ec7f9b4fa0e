import MetricScript.Script.Token

/-!
# What can go wrong in a run

The causes for which a run stops, and their messages.  A provider fails for reasons of
its own; everything else is a fault of the script.  A fault becomes a run-time error when
the place in the script is known.
-/

namespace MetricScript

/-- Why a provider could not do what it was asked. -/
inductive ProviderError where
  /-- The backing store cannot be reached. -/
  | unavailable (reason : String)
  | storage (reason : String)
  | series (reason : String)
  /-- The request could not be completed. -/
  | http (reason : String)
  | file (reason : String)
  /-- Data could not be converted to or from its stored form. -/
  | decode (reason : String)
deriving DecidableEq

def ProviderError.message : ProviderError → String
  | unavailable reason => "provider unavailable: " ++ reason
  | storage reason => "storage error: " ++ reason
  | series reason => "series error: " ++ reason
  | http reason => "HTTP request failed: " ++ reason
  | file reason => "file error: " ++ reason
  | decode reason => "invalid data: " ++ reason

/-- Why an expression has no value. -/
inductive Fault where
  | invalidNumber (found : String)
  | invalidBoolean (found : String)
  | typeMismatch (expected found : String)
  | nonNumericElement (index : Nat) (reason : String)
  | unknownVariable (name : String)
  | unknownArgument (name : String)
  | unknownProperty (target property : String)
  | notCallable (target : String)
  | notEvaluable (target : String)
  | missingArgument (function argument : String)
  | unexpectedArgument (function argument : String)
  | unnamedArgument (function : String)
  | invalidArgument (function argument reason : String)
  | indexOutOfRange (index : String)
  | divideByZero
  /-- Raised by the script itself. -/
  | raised (message : String)
  | provider (operation : String) (source : ProviderError)
deriving DecidableEq

namespace Fault

def message : Fault → String
  | invalidNumber found => "Invalid numeric value `" ++ found ++ "`"
  | invalidBoolean found => "Invalid boolean value `" ++ found ++ "`"
  | typeMismatch expected found => "Expected " ++ expected ++ ", found `" ++ found ++ "`"
  | nonNumericElement index reason =>
      "Value at index " ++ toString index ++ " is not numeric: " ++ reason
  | unknownVariable name => "Unknown variable `" ++ name ++ "`"
  | unknownArgument name => "Unknown script argument `" ++ name ++ "`"
  | unknownProperty target property =>
      target ++ " does not contain a property with the key `" ++ property ++ "`"
  | notCallable target => target ++ " is not a function"
  | notEvaluable target => target ++ " cannot be evaluated"
  | missingArgument function argument =>
      function ++ "() is missing the required argument `" ++ argument ++ "`"
  | unexpectedArgument function argument =>
      function ++ "() does not accept an argument named `" ++ argument ++ "`"
  | unnamedArgument function =>
      function ++
        "() only accepts an unnamed argument when it takes exactly one parameter"
  | invalidArgument function argument reason =>
      function ++ "() argument `" ++ argument ++ "` is invalid: " ++ reason
  | indexOutOfRange index => "Invalid index `" ++ index ++ "`"
  | divideByZero => "Divide by zero"
  | raised message => message
  | provider operation source => operation ++ " failed: " ++ source.message

end Fault

/-- A fault and the place in the script where it arose. -/
structure RuntimeError where
  fault : Fault
  position : Position
deriving DecidableEq

def RuntimeError.message (error : RuntimeError) : String :=
  error.fault.message ++ " at line " ++ error.position.text

end MetricScript
