import MetricScript.Provider.Basic
import MetricScript.Value.Basic

/-!
# Runs

What a script has at its disposal while it runs: its arguments, its variables and the
output table.  A run keeps a journal of what it did, so that two runs can be compared step
by step.  An action is a step of a run: it may ask the provider and it may stop early.
-/

namespace MetricScript

inductive Event where
  | readClock (time : Int64)
  | performed (operation : Operation) (reply : operation.Reply)
  | logged (message : String)
  /-- A variable was bound. -/
  | assigned (name : String) (value : Value)
  /-- An entry of the output table was written. -/
  | wrote (name : String) (value : Value)

/-- The state of a run.  The latest event of the journal comes first. -/
structure Run where
  arguments : Table Value := []
  bindings : Table Value := []
  output : Table Value := []
  journal : List Event := []

namespace Run

/-- The messages that were logged, in order. -/
def logs (run : Run) : List String :=
  run.journal.reverse.filterMap fun
    | .logged message => some message
    | _ => none

end Run

/-- A step of a run against a provider with effects in `m`, which may stop with an `ε`. -/
abbrev RunM (m : Type → Type) (ε α : Type) := ExceptT ε (StateT Run m) α

namespace RunM

variable {m : Type → Type} [Monad m] {ε δ α : Type}

def note (event : Event) : RunM m ε Unit :=
  modify fun run => { run with journal := event :: run.journal }

/-- Asks the world outside of the run. -/
def outside (question : m α) : RunM m ε α := ExceptT.lift (StateT.lift question)

/-- What is already known to succeed or to fail. -/
def settle : Except ε α → RunM m ε α
  | .ok value => pure value
  | .error error => throw error

def current : RunM m ε Run := get

/-- Changes the errors of an action. -/
def mapError (change : ε → δ) (action : RunM m ε α) : RunM m δ α :=
  ExceptT.adapt change action

def assign (name : String) (value : Value) : RunM m ε Unit := do
  note (.assigned name value)
  modify fun run => { run with bindings := Table.insert name value run.bindings }

def write (name : String) (value : Value) : RunM m ε Unit := do
  note (.wrote name value)
  modify fun run => { run with output := Table.insert name value run.output }

def clock (provider : Provider m) : RunM m ε Int64 := do
  let time ← outside provider.now
  note (.readClock time)
  return time

/-- Asks the provider to perform an operation; `label` is what messages call it. -/
def perform (provider : Provider m) (label : String) (operation : Operation) :
    RunM m Fault operation.Answer := do
  let reply ← outside (provider.perform operation)
  note (.performed operation reply)
  settle (reply.mapError (.provider label))

end RunM

end MetricScript
