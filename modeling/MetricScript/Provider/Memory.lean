import MetricScript.Provider.Store
import MetricScript.Files.Disk

/-!
# The provider in memory

A provider that keeps counters, series and stored maps in a store.  What is not in the
store it asks of its surroundings: the clock, other hosts and files.  A scene is a set of
surroundings that is itself plain data.
-/

namespace MetricScript

/-- What lies around a store. -/
structure Surroundings (n : Type → Type) where
  now : n Int64
  send : HttpRequest → n (Except ProviderError HttpResponse)
  readFile : String → n (Except ProviderError String)

namespace Store

variable {n : Type → Type} [Monad n]

/-- Answers from the store, which stays as it is. -/
def answering {α : Type} (answer : Store → Except ProviderError α) :
    StateT Store n (Except ProviderError α) := do
  return answer (← get)

def changing (change : Store → Store) : StateT Store n (Except ProviderError Unit) := do
  modify change
  return .ok ()

def perform (outside : Surroundings n) : (operation : Operation) → StateT Store n operation.Reply
  | .counterValue name => answering fun store => .ok (store.counter name)
  | .setCounter name value => changing fun store => store.setCounter name value
  | .incrementCounter name delta => changing fun store => store.incrementCounter name delta
  | .seriesLast name => answering fun store => .ok (Series.last? (store.points name))
  | .seriesAggregate name function interval count => do
      let now ← outside.now
      answering fun store => store.aggregate now name function interval count
  | .seriesCompute name function window => do
      let now ← outside.now
      answering fun store => store.compute now name function window
  | .seriesPush name point => changing fun store => store.pushPoint name point
  | .seriesPop name => do
      let newest := Series.last? ((← get).points name)
      modify fun store => store.modifySeries name List.dropLast
      return .ok newest
  | .seriesTrim name trim =>
      changing fun store => store.modifySeries name fun points => Series.trim points trim
  | .seriesItems name count =>
      answering fun store => .ok (Series.newest count (store.points name))
  | .readStorage key => answering fun store => .ok (store.stored key)
  | .writeStorage key value => changing fun store => store.writeStored key value
  | .http request => outside.send request
  | .fileText path => outside.readFile path

def provider (outside : Surroundings n) : Provider (StateT Store n) where
  now := outside.now
  perform := perform outside

end Store

/-- Surroundings as data: a clock that stands still, answers to requests if there is any
network, and files. -/
structure Scene where
  clock : Int64
  network : Option CannedAnswers := none
  files : Disk := .empty

namespace Scene

def send (request : HttpRequest) : StateM Scene (Except ProviderError HttpResponse) := do
  let scene ← get
  match scene.network with
  | none => return .error (.http "no HTTP transport configured")
  | some canned =>
      let (response, after) := canned.send request
      set { scene with network := some after }
      return response

def readFile (path : String) : StateM Scene (Except ProviderError String) := do
  match (← get).files.read path with
  | .ok text => return .ok text
  | .error error => return .error (.file (path ++ ": " ++ error.message))

def surroundings : Surroundings (StateM Scene) where
  now := return (← get).clock
  send := send
  readFile := readFile

end Scene

end MetricScript
