import MetricScript.Run.Basic
import MetricScript.Method.OnData
import MetricScript.Series.Interval
import MetricScript.Value.Document
import MetricScript.Json.Read
import MetricScript.Text.Lowercase

/-!
# Calls of methods

What a method does once its arguments are bound.  Every failure of the provider becomes a
fault that names the call, and nothing is done after it.
-/

namespace MetricScript

open RunM

variable {m : Type → Type} [Monad m]

/-- A name between parentheses and quotes, as calls are shown in messages. -/
def quotedCall (function name : String) : String := function ++ "(\"" ++ name ++ "\")"

/-- The texts of a table, entry by entry. -/
def textPairs (entries : Table Value) : List (String × String) := Table.mapValues Value.text entries

/-- The credentials in a map, which must have both of its entries. -/
def credentialsOf (arguments : Arguments) (entries : Table Value) : Except Fault Credentials := do
  let entry (key : String) : Except Fault String :=
    match Table.get? key entries with
    | some value => .ok value.text
    | none => .error (arguments.invalid "auth" ("missing `" ++ key ++ "`"))
  return ⟨← entry "user", ← entry "password"⟩

/-- The body of a request; an empty map is no body. -/
def bodyOf (arguments : Arguments) : Except Fault (Option HttpBody) :=
  match arguments.map? "body" with
  | none | some [] => .ok none
  | some entries =>
      if (arguments.boolean? "json").getD false then
        (Value.map entries).toJson.map fun document => some (.json document)
      else .ok (some (.form (textPairs entries)))

def requestOf (method : HttpMethod) (arguments : Arguments) : Except Fault HttpRequest := do
  let url ← arguments.string "url"
  let query := ((arguments.map? "query").map textPairs).getD []
  let credentials ← (arguments.map? "auth").mapM (credentialsOf arguments)
  let body ← bodyOf arguments
  return { method, url, query, credentials, body }

/-- The map that a script sees of a response. -/
def responseValue (response : HttpResponse) : Value :=
  .map [("body", .ofJson response.body),
    ("header", .map (Table.mapValues .string response.headers)),
    ("status_code", .number (Float.ofNat response.status))]

/-- Sends a request and waits for the response. -/
def callHttp (provider : Provider m) (method : HttpMethod) (arguments : Arguments) :
    RunM m Fault Value := do
  let request ← settle (requestOf method arguments)
  let response ← perform provider (method.name ++ " " ++ request.url) (.http request)
  return responseValue response

/-- Reads a data file; the only format is JSON. -/
def callLoad (provider : Provider m) (arguments : Arguments) : RunM m Fault Value := do
  let format := Text.lower (← settle (arguments.string "format"))
  if format ≠ "json" then
    throw (arguments.invalid "format" ("unknown file format `" ++ format ++ "`"))
  else
    let path ← settle (arguments.string "path")
    let label := quotedCall "load" path
    let text ← perform provider label (.fileText path)
    match Json.read? text with
    | some document => return .ofJson document
    | none => throw (.provider label (.decode "not a JSON document"))

def GlobalMethod.call (provider : Provider m) (arguments : Arguments) :
    GlobalMethod → RunM m Fault Value
  | .now => do return .number (Number.ofInt64 (← clock provider))
  | .counter => do return .handle (.counter (← settle (arguments.string "name")))
  | .series => do return .handle (.series (← settle (arguments.string "name")))
  | .get => callHttp provider .get arguments
  | .post => callHttp provider .post arguments
  | .arg => do
      let name ← settle (arguments.string "name")
      match Table.get? name (← current).arguments with
      | some value => return value
      | none => throw (.unknownArgument name)
  | .log => do
      note (.logged (← settle (arguments.string "message")))
      return .null
  | .error => do throw (.raised (← settle (arguments.string "message")))
  | .anomaly => do
      let data ← settle (arguments.numbers "data")
      let value ← settle (arguments.number "value")
      return .boolean (isAnomaly data value)
  | .load => callLoad provider arguments

/-- Calls a method of a counter.  Counters hold integers, so a fraction is dropped. -/
def CounterMethod.call (provider : Provider m) (counter : String) (arguments : Arguments)
    (method : CounterMethod) : RunM m Fault Value := do
  let operation ←
    match method with
    | .set => do
        let value ← settle (arguments.number "value")
        pure (Operation.setCounter counter (Number.toInt64 value))
    | .increment => do
        let delta ← settle (arguments.number "delta")
        pure (Operation.incrementCounter counter (Number.toInt64 delta))
    | .reset => pure (Operation.setCounter counter 0)
  let _ ← perform provider (quotedCall "counter" counter ++ "." ++ method.name ++ "()") operation
  return .null

/-- The whole seconds of an interval argument, at least one. -/
def intervalSeconds (arguments : Arguments) (name : String) : Except Fault Nat := do
  match Duration.read (← arguments.string name) with
  | .error error => .error (arguments.invalid name error.message)
  | .ok duration =>
      if duration.seconds = 0 then
        .error (arguments.invalid name "must be at least one second")
      else .ok duration.seconds

/-- The time that lies some seconds before another, if it is in range. -/
def timeBefore? (now : Int64) (seconds : Nat) : Option Int64 :=
  let time := now.toInt - seconds
  if Int64.minValue.toInt ≤ time then some (Int64.ofInt time) else none

/-- How a series is to be shortened: by age or by count, and by one of them only. -/
def trimOf (provider : Provider m) (arguments : Arguments) : RunM m Fault Trim :=
  match arguments.string? "since", arguments.get? "count" with
  | some _, some _ =>
      throw (arguments.invalid "since" "`since` and `count` cannot be combined")
  | some _, none => do
      let tooLarge := arguments.invalid "since" "interval is too large"
      let seconds ← settle (intervalSeconds arguments "since")
      if Int64.maxValue.toInt < seconds then throw tooLarge
      else
        match timeBefore? (← clock provider) seconds with
        | some time => return .since time
        | none => throw tooLarge
  | none, some _ => do return .count (← settle (arguments.count "count"))
  | none, none =>
      throw (arguments.invalid "since" "either `since` or `count` is required")

/-- The sample that is shown for the newest one; without samples it is zero at time 0. -/
def pointOrZero (point : Option Point) : Value := .handle (.point (point.getD ⟨0, 0.0⟩))

def SeriesMethod.call (provider : Provider m) (series : String) (arguments : Arguments)
    (method : SeriesMethod) : RunM m Fault Value := do
  let label := quotedCall "series" series ++ "." ++ method.name ++ "()"
  match method with
  | .last => return pointOrZero (← perform provider label (.seriesLast series))
  | .pop => return pointOrZero (← perform provider label (.seriesPop series))
  | .aggregate =>
      let name ← settle (arguments.string "func")
      match AggregateFunction.read? name with
      | none => throw (arguments.invalid "func" (AggregateFunction.unknownMessage name))
      | some function =>
          let interval ← settle (intervalSeconds arguments "interval")
          let count ← settle (arguments.count "count")
          let points ←
            perform provider label (.seriesAggregate series function interval count)
          return .handle (.aggregate points)
  | .compute function =>
      let window ← settle (intervalSeconds arguments "interval")
      return .number (← perform provider label (.seriesCompute series function window))
  | .push =>
      let value ← settle (arguments.number "value")
      let timestamp ←
        match arguments.number? "timestamp" with
        | some time => pure (Number.toInt64 time)
        | none => clock provider
      perform provider label (.seriesPush series ⟨timestamp, value⟩)
      return .null
  | .trim =>
      let trim ← trimOf provider arguments
      perform provider label (.seriesTrim series trim)
      return .null
  | .items =>
      let count ← settle (arguments.count "count")
      return .handle (.aggregate (← perform provider label (.seriesItems series count)))

/-- The document of a map argument, which is an object. -/
def objectOf (arguments : Arguments) (entries : Table Value) : Except Fault (Table Json) := do
  match ← (Value.map entries).toJson with
  | .object document => .ok document
  | other => .error (arguments.invalid "value" ("expected a map, got " ++ other.compact))

/-- The document of a map is always an object. -/
theorem objectOf_eq (arguments : Arguments) (entries : Table Value) :
    objectOf arguments entries = Value.entriesToJson entries := by
  change ((Value.entriesToJson entries).map Json.object >>= _) = _
  cases Value.entriesToJson entries with
  | error fault => rfl
  | ok document => rfl

def StorageMethod.call (provider : Provider m) (arguments : Arguments) (method : StorageMethod) :
    RunM m Fault Value := do
  let key ← settle (arguments.string "key")
  let label := quotedCall ("storage." ++ method.name) key
  match method with
  | .get => return .ofJson (.object (← perform provider label (.readStorage key)))
  | .set =>
      let entries ← settle (arguments.map "value")
      let document ← settle (objectOf arguments entries)
      perform provider label (.writeStorage key document)
      return .null

/-- Calls a method of a map.  Setting an entry changes the variable that the map was read
from; a map from elsewhere has nowhere to be written to and stays as it is. -/
def MapMethod.call (entries : Table Value) (origin : Option String) (arguments : Arguments) :
    MapMethod → RunM m Fault Value
  | .item => do
      let index ← settle (arguments.string "index")
      match Table.get? index entries with
      | some value => return value
      | none => throw (.indexOutOfRange index)
  | .count => return .number (countOf entries)
  | .set => do
      let index ← settle (arguments.string "index")
      let value ← settle (arguments.value "value")
      match origin with
      | some variableName => assign variableName (.map (Table.insert index value entries))
      | none => pure ()
      return .null

/-- Runs a method with bound arguments. -/
def BoundMethod.apply (provider : Provider m) (arguments : Arguments) :
    BoundMethod → RunM m Fault Value
  | .ofGlobal method => method.call provider arguments
  | .ofCounter counter method => method.call provider counter arguments
  | .ofSeries series method => method.call provider series arguments
  | .ofStorage method => method.call provider arguments
  | .ofString text method => settle (method.apply text arguments)
  | .ofArray items method => settle (method.apply items arguments)
  | .ofMap entries origin method => method.call entries origin arguments

/-- Calls a method: binds the arguments to its parameters and runs it. -/
def BoundMethod.call (provider : Provider m) (bound : BoundMethod)
    (arguments : List (Option String × Value)) : RunM m Fault Value := do
  bound.apply provider (← settle (bindArguments bound.name bound.params arguments))

end MetricScript
