import MetricScript.Run.Eval

/-!
# Execution of commands

Commands run one after the other until one of them fails.  A variable may hold a handle,
so that a counter can be named once and used later; the output table only takes plain
data.  Each loop is allowed a number of passes.  A loop that needs more stops the run as
`exhausted`, which is not a failure of the script: with a larger allowance the run goes on
from there in the same way.
-/

namespace MetricScript

open RunM

variable {m : Type → Type} [Monad m]

/-- Why a run ended early. -/
inductive Stop where
  | failed (error : RuntimeError)
  /-- A loop used up the passes it was allowed. -/
  | exhausted
deriving DecidableEq

def repeatWhile (test : RunM m RuntimeError Bool) (body : RunM m Stop Unit) :
    (passes : Nat) → RunM m Stop Unit
  | 0 => throw .exhausted
  | passes + 1 => do
      if ← mapError .failed test then
        body
        repeatWhile test body passes
      else return

namespace Command

mutual

def execute (provider : Provider m) (passes : Nat) : Command → RunM m Stop Unit
  | setVariable name value => do
      assign name (← mapError .failed (value.evaluate provider))
  | setOutput name value => do
      write name (← mapError .failed (value.data provider))
  | evaluate value => do
      let _ ← mapError .failed (value.data provider)
      return
  | ifElse condition thenBranch elseBranch => do
      if ← mapError .failed (condition.holds provider) then
        executeAll provider passes thenBranch
      else executeAll provider passes elseBranch
  | whileLoop condition body =>
      repeatWhile (condition.holds provider) (executeAll provider passes body) passes
termination_by structural command => command

def executeAll (provider : Provider m) (passes : Nat) : List Command → RunM m Stop Unit
  | [] => return
  | command :: rest => do
      command.execute provider passes
      executeAll provider passes rest
termination_by structural commands => commands

end

end Command

/-- How a script ended: with its output table, with an error, or not at all. -/
inductive Ending where
  | finished (output : Table Value)
  | failed (error : RuntimeError)
  | exhausted

namespace Script

/-- The states of a run after each of its commands, up to the first one that stops it. -/
def trace (provider : Provider m) (passes : Nat) (run : Run) :
    Script → m (List (Run × Option Stop))
  | [] => return []
  | command :: rest => do
      let (result, next) ← ((command.execute provider passes).run).run run
      match result with
      | .ok () => return (next, none) :: (← trace provider passes next rest)
      | .error stop => return [(next, some stop)]

/-- Runs a script with the given arguments and keeps what the run did. -/
def run (script : Script) (provider : Provider m) (passes : Nat) (arguments : Table Value) :
    m (Ending × Run) := do
  let (result, final) ←
    ((Command.executeAll provider passes script).run).run { arguments }
  match result with
  | .ok () => return (.finished final.output, final)
  | .error (.failed error) => return (.failed error, final)
  | .error .exhausted => return (.exhausted, final)

end Script

end MetricScript
