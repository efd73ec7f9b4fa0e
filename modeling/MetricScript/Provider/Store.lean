import MetricScript.Provider.Basic

/-!
# The store

Counters, series and stored maps by name.  Every operation on them is a function from a
store to an answer and a store, and touches one name only.  The aggregate reads one window
of the series for each of its buckets.
-/

namespace MetricScript

/-- Counters, series and stored maps. -/
structure Store where
  counters : Table Int64 := []
  series : Table Series := []
  storage : Table (Table Json) := []

namespace Store

/-- The most buckets that one aggregate may have. -/
def maxBuckets : Nat := 100000

def counter (store : Store) (name : String) : Int64 :=
  (Table.get? name store.counters).getD 0

def setCounter (store : Store) (name : String) (value : Int64) : Store :=
  { store with counters := Table.insert name value store.counters }

/-- Adds to a counter, clamping to the 64-bit range. -/
def incrementCounter (store : Store) (name : String) (delta : Int64) : Store :=
  store.setCounter name (addClamped (store.counter name) delta)

def points (store : Store) (name : String) : Series :=
  (Table.get? name store.series).getD []

/-- Changes a series that is there. -/
def modifySeries (store : Store) (name : String) (change : Series → Series) : Store :=
  { store with series := Table.modify name change store.series }

/-- Puts a sample into a series, which need not be there yet. -/
def pushPoint (store : Store) (name : String) (point : Point) : Store :=
  { store with
    series := Table.insert name (Series.push point (store.points name)) store.series }

/-- The values of a window of a series. -/
def window (store : Store) (name : String) (first final : Int64) : List Float :=
  Series.window first final (store.points name)

/-- A number of seconds as a time span, or why it is none. -/
def timeSpan (what : String) (seconds : Nat) : Except ProviderError Int64 :=
  if seconds ≤ Int64.maxValue.toInt.toNat then .ok (Int64.ofNat seconds)
  else .error (.series (what ++ " " ++ toString seconds ++ "s is too large"))

/-- One sample for each bucket, at the end of the bucket. -/
def aggregate (store : Store) (now : Int64) (name : String) (function : AggregateFunction)
    (interval count : Nat) : Except ProviderError (List Point) := do
  if maxBuckets < count then
    .error (.series (toString count ++ " buckets requested, at most " ++
      toString maxBuckets ++ " allowed"))
  else
    let span ← timeSpan "interval" interval
    .ok ((Series.buckets now span count).map fun (first, final) =>
      ⟨final, function.apply (store.window name first final)⟩)

/-- A function over the samples of the last seconds. -/
def compute (store : Store) (now : Int64) (name : String) (function : AggregateFunction)
    (seconds : Nat) : Except ProviderError Float := do
  let span ← timeSpan "window" seconds
  .ok (function.apply (store.window name (subClamped now span) now))

def stored (store : Store) (key : String) : Table Json :=
  (Table.get? key store.storage).getD []

def writeStored (store : Store) (key : String) (value : Table Json) : Store :=
  { store with storage := Table.insert key value store.storage }

end Store

end MetricScript
