import Mathlib
import MetricScript.Proofs.Run.Correspondence
import MetricScript.Provider.Memory

/-!
# The names of variables do not matter

A script and its renaming correspond, so their runs are one run that is looked at from two
sides.  What can be seen of a run from outside has no variable in it, except for the text of an
error that shows an expression of the script.
-/

namespace MetricScript

open RunM Naming

variable {rename : String → String}

/-! ## What is seen of renamed events -/

namespace Event

end Event

/-- Scripts end in the same way, up to the names of variables in the text of an error. -/
inductive Ending.Renamed (rename : String → String) : Ending → Ending → Prop where
  | finished (output : Table Value) : Renamed rename (.finished output) (.finished output)
  | failed {left right : RuntimeError} (herror : left.Renamed rename right) :
      Renamed rename (.failed left) (.failed right)
  | exhausted : Renamed rename .exhausted .exhausted

end MetricScript
