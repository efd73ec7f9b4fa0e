import MetricScript.Http.Basic
import MetricScript.Series.Basic

/-!
# Providers

Everything that a script reaches outside of itself goes through a provider: counters,
series, stored maps, requests to other hosts, files and the clock.  The operations are
data, and each has the type of its answer, so that what a run asked for can be kept and
compared.  Any operation can fail, but the clock can always be read.
-/

namespace MetricScript

/-- What a run can ask of a provider. -/
inductive Operation where
  /-- The value of a counter; counters that are not there read as 0. -/
  | counterValue (name : String)
  | setCounter (name : String) (value : Int64)
  | incrementCounter (name : String) (delta : Int64)
  /-- The newest sample. -/
  | seriesLast (name : String)
  /-- One sample for each of `count` buckets of `interval` seconds that end now. -/
  | seriesAggregate (name : String) (function : AggregateFunction) (interval count : Nat)
  /-- The function over the samples of the last `window` seconds. -/
  | seriesCompute (name : String) (function : AggregateFunction) (window : Nat)
  | seriesPush (name : String) (point : Point)
  /-- Takes the newest sample away. -/
  | seriesPop (name : String)
  | seriesTrim (name : String) (trim : Trim)
  /-- The newest samples, the oldest of them first. -/
  | seriesItems (name : String) (count : Nat)
  /-- A stored map; keys that are not there read as the empty map. -/
  | readStorage (key : String)
  | writeStorage (key : String) (value : Table Json)
  | http (request : HttpRequest)
  /-- The text of a file. -/
  | fileText (path : String)

def Operation.Answer : Operation → Type
  | counterValue _ => Int64
  | setCounter _ _ | incrementCounter _ _ => Unit
  | seriesLast _ | seriesPop _ => Option Point
  | seriesAggregate _ _ _ _ | seriesItems _ _ => List Point
  | seriesCompute _ _ _ => Float
  | seriesPush _ _ | seriesTrim _ _ => Unit
  | readStorage _ => Table Json
  | writeStorage _ _ => Unit
  | http _ => HttpResponse
  | fileText _ => String

/-- What a provider says to an operation: the answer, or why there is none. -/
abbrev Operation.Reply (operation : Operation) : Type :=
  Except ProviderError operation.Answer

/-- A provider whose effects are those of `m`. -/
structure Provider (m : Type → Type) where
  /-- The Unix time in seconds. -/
  now : m Int64
  perform : (operation : Operation) → m operation.Reply

namespace Provider

variable {m : Type → Type}

/-- The provider in which some operations fail before they are tried. -/
def failing [Monad m] (failure? : Operation → Option ProviderError) (provider : Provider m) :
    Provider m where
  now := provider.now
  perform operation :=
    match failure? operation with
    | some error => pure (.error error)
    | none => provider.perform operation

end Provider

end MetricScript
