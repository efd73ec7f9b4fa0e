import MetricScript.Number.Decimal

/-!
# Aggregate functions

Functions that make one number of a list of samples.  A sum runs from left to right and
starts from negative zero, so that it is exact on a single sample; least and greatest
sample skip undefined numbers.
-/

namespace MetricScript

/-- A sample of a series: a Unix time in seconds and a value. -/
structure Point where
  timestamp : Int64
  value : Float
deriving DecidableEq

/-- The functions that make one number of many. -/
inductive AggregateFunction where
  | sum
  | avg
  | min
  | max
  | count
  | stddev
deriving DecidableEq

/-- The sum of the samples, from left to right. -/
def sumOf (values : List Float) : Float := values.foldl (· + ·) (-0.0)

/-- The least sample, undefined ones apart. -/
def leastOf (values : List Float) : Float :=
  values.foldl (fun least value => if value < least then value else least) Number.infinity

/-- The greatest sample, undefined ones apart. -/
def greatestOf (values : List Float) : Float :=
  values.foldl (fun greatest value => if greatest < value then value else greatest)
    (-Number.infinity)

/-- How many samples there are, as a number. -/
def countOf {α : Type} (values : List α) : Float := Float.ofNat values.length

/-- The sum of the squared distances of the samples from a mean. -/
def squaresOf (mean : Float) (values : List Float) : Float :=
  sumOf (values.map fun value => (value - mean) * (value - mean))

namespace AggregateFunction

def name : AggregateFunction → String
  | sum => "sum"
  | avg => "avg"
  | min => "min"
  | max => "max"
  | count => "count"
  | stddev => "stddev"

/-- The function of a name, in any letter case; the mean has three names. -/
def read? (text : String) : Option AggregateFunction :=
  match String.ofList (text.toList.map Number.lowerAscii) with
  | "sum" => some sum
  | "avg" | "average" | "mean" => some avg
  | "min" => some min
  | "max" => some max
  | "count" => some count
  | "stddev" => some stddev
  | _ => none

/-- The message about a text that names no aggregate function. -/
def unknownMessage (text : String) : String :=
  "unknown aggregate function `" ++ String.ofList (text.toList.map Number.lowerAscii) ++ "`"

/-- Applies the function.  Without samples it gives 0; the deviation is that of a sample
and gives 0 for a single one. -/
def apply (function : AggregateFunction) (values : List Float) : Float :=
  if values.isEmpty then 0.0
  else
    let total := sumOf values
    let size := countOf values
    match function with
    | sum => total
    | avg => total / size
    | min => leastOf values
    | max => greatestOf values
    | count => size
    | stddev =>
        if values.length < 2 then 0.0
        else (squaresOf (total / size) values / (size - 1.0)).sqrt

end AggregateFunction

end MetricScript
