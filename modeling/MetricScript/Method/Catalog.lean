import MetricScript.Series.Aggregate

/-!
# The methods

Every kind of value has a table of methods.  A method has one canonical name, sometimes a
second one, and a list of parameters, each with a name, the kind its argument is brought
to, and whether it may be left out.
-/

namespace MetricScript

/-- What an argument is brought to before a method sees it. -/
inductive ArgKind where
  | string
  | numeric
  | boolean
  | array
  | numericArray
  | map
  | any
deriving DecidableEq

structure Param where
  name : String
  kind : ArgKind
  required : Bool
deriving DecidableEq

/-- A parameter that must be given. -/
def Param.needed (name : String) (kind : ArgKind) : Param := ⟨name, kind, true⟩

/-- A parameter that may be left out. -/
def Param.optional (name : String) (kind : ArgKind) : Param := ⟨name, kind, false⟩

/-- The functions with bare names. -/
inductive GlobalMethod where
  | now
  | counter
  | series
  | get
  | post
  | arg
  | log
  | error
  | anomaly
  | load
deriving DecidableEq

namespace GlobalMethod

def name : GlobalMethod → String
  | now => "now"
  | counter => "counter"
  | series => "series"
  | get => "get"
  | post => "post"
  | arg => "arg"
  | log => "log"
  | error => "error"
  | anomaly => "anomaly"
  | load => "load"

def lookup? : String → Option GlobalMethod
  | "now" => some now
  | "counter" => some counter
  | "series" => some series
  | "get" => some get
  | "post" => some post
  | "arg" => some arg
  | "log" => some log
  | "error" => some error
  | "anomaly" => some anomaly
  | "load" => some load
  | _ => none

def params : GlobalMethod → List Param
  | now => []
  | counter | series | arg => [.needed "name" .string]
  | log | error => [.needed "message" .string]
  | get => [.needed "url" .string, .optional "auth" .map, .optional "query" .map]
  | post =>
      [.needed "url" .string, .optional "auth" .map, .optional "query" .map,
        .optional "body" .map, .optional "json" .boolean]
  | anomaly => [.needed "data" .numericArray, .needed "value" .numeric]
  | load => [.needed "format" .string, .needed "path" .string]

end GlobalMethod

inductive CounterMethod where
  | set
  | increment
  | reset
deriving DecidableEq

namespace CounterMethod

def name : CounterMethod → String
  | set => "set"
  | increment => "increment"
  | reset => "reset"

def lookup? : String → Option CounterMethod
  | "set" => some set
  | "increment" => some increment
  | "reset" => some reset
  | _ => none

def params : CounterMethod → List Param
  | set => [.needed "value" .numeric]
  | increment => [.needed "delta" .numeric]
  | reset => []

end CounterMethod

inductive SeriesMethod where
  | last
  | aggregate
  | compute (function : AggregateFunction)
  | push
  | pop
  | trim
  | items
deriving DecidableEq

namespace SeriesMethod

def name : SeriesMethod → String
  | last => "last"
  | aggregate => "aggregate"
  | compute function => function.name
  | push => "push"
  | pop => "pop"
  | trim => "trim"
  | items => "items"

def lookup? : String → Option SeriesMethod
  | "last" => some last
  | "aggregate" => some aggregate
  | "avg" => some (compute .avg)
  | "min" => some (compute .min)
  | "max" => some (compute .max)
  | "sum" => some (compute .sum)
  | "count" => some (compute .count)
  | "stddev" => some (compute .stddev)
  | "push" => some push
  | "pop" => some pop
  | "trim" => some trim
  | "items" => some items
  | _ => none

def params : SeriesMethod → List Param
  | last | pop => []
  | aggregate =>
      [.needed "func" .string, .needed "interval" .string, .needed "count" .numeric]
  | compute _ => [.needed "interval" .string]
  | push => [.needed "value" .numeric, .optional "timestamp" .numeric]
  | trim => [.optional "since" .string, .optional "count" .numeric]
  | items => [.needed "count" .numeric]

end SeriesMethod

inductive StorageMethod where
  | get
  | set
deriving DecidableEq

namespace StorageMethod

def name : StorageMethod → String
  | get => "get"
  | set => "set"

def lookup? : String → Option StorageMethod
  | "get" => some get
  | "set" => some set
  | _ => none

def params : StorageMethod → List Param
  | get => [.needed "key" .string]
  | set => [.needed "key" .string, .needed "value" .map]

end StorageMethod

inductive StringMethod where
  | split
  | toNumber
deriving DecidableEq

namespace StringMethod

def name : StringMethod → String
  | split => "split"
  | toNumber => "toNumber"

def lookup? : String → Option StringMethod
  | "split" => some split
  | "toNumber" => some toNumber
  | _ => none

def params : StringMethod → List Param
  | split => [.needed "separator" .string]
  | toNumber => []

end StringMethod

inductive ArrayMethod where
  | item
  | count
  | sum
  | min
  | max
  | avg
  | stddev
deriving DecidableEq

namespace ArrayMethod

def name : ArrayMethod → String
  | item => "item"
  | count => "count"
  | sum => "sum"
  | min => "min"
  | max => "max"
  | avg => "avg"
  | stddev => "stddev"

/-- The method of a name; the mean has two names. -/
def lookup? : String → Option ArrayMethod
  | "item" => some item
  | "count" => some count
  | "sum" => some sum
  | "min" => some min
  | "max" => some max
  | "avg" | "average" => some avg
  | "stddev" => some stddev
  | _ => none

def params : ArrayMethod → List Param
  | item => [.needed "index" .numeric]
  | _ => []

end ArrayMethod

inductive MapMethod where
  | item
  | count
  | set
deriving DecidableEq

namespace MapMethod

def name : MapMethod → String
  | item => "item"
  | count => "count"
  | set => "set"

def lookup? : String → Option MapMethod
  | "item" => some item
  | "count" => some count
  | "set" => some set
  | _ => none

def params : MapMethod → List Param
  | item => [.needed "index" .string]
  | count => []
  | set => [.needed "index" .string, .needed "value" .any]

end MapMethod

end MetricScript
